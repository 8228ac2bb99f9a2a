/-
The asynchronous DTL bridge (`FailOverCacheAsyncBridge`) while the connection works: the volume
adds entries to `newOnes`, the writer thread sends `oldOnes`, and the two are swapped together
with the buffers their entries point into. Each action is what one thread does between taking
and giving back its mutexes, so a run is any interleaving of the volume, the writer and `Flush`.
-/
import VolumeDriver.Types
import VolumeDriver.Lib.Steps

namespace VolumeDriver

open Lib List

namespace AsyncBridge

/-! ## State -/

/-- An entry with the data of its cluster. -/
structure Entry (D : Type) where
  cli_ : ClusterLocation
  lba_ : Nat
  data : D

/-- A `FailOverCacheEntry`: its data are a slot of one of the two buffers. -/
structure Ref where
  cli_ : ClusterLocation
  lba_ : Nat
  block : Bool
  slot : Nat
  deriving DecidableEq, Repr

/-- Where the writer thread is: in `wait_for`, or between it and the next one with `mutex_` held,
or past its loop. -/
inductive Writer
  | waiting
  | awake
  | exited
  deriving DecidableEq, Repr

/-- The bridge, with the two blocks of memory it swaps. -/
structure Bridge (D : Type) where
  newOnes : List Ref := []
  oldOnes : List Ref := []
  /-- Which of the two blocks of memory is `newData`; the other one is `oldData`. -/
  newData : Bool := false
  mem : Bool → Nat → D
  throttling : Bool := false
  stop_ : Bool := false
  cache_ : Bool := true
  writer : Writer := .awake
  /-- The entries of the calls of `addEntries` that returned true. -/
  accepted : List (Entry D) := []
  /-- The batches `addEntries` of the proxy was called with. -/
  handed : List (List (Entry D)) := []
  /-- The batches that passed the encoder. -/
  sent : List (List (Entry D)) := []

variable {D : Type}

/-- The entry that a reference stands for. -/
def deref (mem : Bool → Nat → D) (r : Ref) : Entry D := ⟨r.cli_, r.lba_, mem r.block r.slot⟩

variable (b : Bridge D)

/-- What was accepted and is still in the bridge. -/
def Bridge.pending : List (Entry D) := (b.oldOnes ++ b.newOnes).map (deref b.mem)

/-! ## The proxy -/

/-- The check of the `AddEntries` encoder: the first and the last entry have one SCO. -/
def encodes (batch : List (Entry D)) : Bool := (batch.head?.map (·.cli_.sco)) = (batch.getLast?.map (·.cli_.sco))

/-- `FailOverCacheProxy::addEntries`, when the connection does not fail: a batch the encoder
refuses is not sent. -/
def proxyAddEntries (batch : List (Entry D)) (b : Bridge D) : Bridge D :=
  { b with handed := b.handed ++ [batch], sent := if encodes batch then b.sent ++ [batch] else b.sent }

/-! ## The volume's side -/

/-- The arguments of `addEntries`: `num_locs` clusters of one SCO, from the front of `locs`. -/
structure Batch (D : Type) where
  locs : List ClusterLocation
  num_locs : Nat
  start_address : Nat
  data : Nat → D
  le : num_locs ≤ locs.length
  one_sco : ∀ l ∈ locs.take num_locs, ∀ f ∈ locs.head?, l.sco = f.sco

/-- The entries of a batch. -/
def Batch.entries (cluster_multiplier_ : Nat) (c : Batch D) : List (Entry D) :=
  (c.locs.take c.num_locs).mapIdx fun i loc => ⟨loc, (c.start_address + i * cluster_multiplier_) % 2 ^ 64, c.data i⟩

/-- The data go to the next free slot of `newData`. -/
def addEntry (e : Entry D) : Bridge D :=
  { b with
    mem := fun block slot => if block = b.newData ∧ slot = b.newOnes.length then e.data else b.mem block slot
    newOnes := b.newOnes ++ [⟨e.cli_, e.lba_, b.newData, b.newOnes.length⟩] }

/-- Swaps the lists and their buffers. -/
def swap : Bridge D :=
  { b with newOnes := b.oldOnes, oldOnes := b.newOnes, newData := !b.newData }

/-- `locked`: the try-lock of `mutex_` got it, which it cannot while the writer is awake. -/
def maybe_swap_ (new_sco : Bool) (write_trigger_ : Nat) (locked : Bool) (b : Bridge D) : Bridge D :=
  if (new_sco ∨ write_trigger_ ≤ b.newOnes.length) ∧ locked = true ∧ b.writer ≠ .awake ∧ b.oldOnes = [] then swap b
  else b

/-- The batch starts another SCO than the one `newOnes` ends with. -/
def newSCO (c : Batch D) (b : Bridge D) : Bool :=
  b.newOnes.getLast?.any fun e => c.locs.head?.any fun loc => e.cli_.sco ≠ loc.sco

/-- The entries of the batch are copied in, and the call is going to return true. -/
def accept (es : List (Entry D)) (b : Bridge D) : Bridge D :=
  { es.foldl addEntry b with accepted := b.accepted ++ es }

/-- With `stop_` set the source returns true as well and drops the batch; it does not count as accepted here. -/
def addEntries (max_entries cluster_multiplier_ : Nat) (c : Batch D) (write_trigger_ : Nat) (locked : Bool)
    (b : Bridge D) : Bridge D :=
  if max_entries < c.num_locs then b  -- VERIFY(num_locs <= max_entries())
  else if b.stop_ then b
  else
    let new_sco := newSCO c b
    let throttling := decide (max_entries < b.newOnes.length + c.num_locs) || new_sco
    let b := { b with throttling }
    maybe_swap_ new_sco write_trigger_ locked (if throttling then b else accept (c.entries cluster_multiplier_) b)

/-! ## The writer thread and `Flush` -/

/-- `wait_for` returns, by a notification or by the timeout. -/
def wake : Bridge D :=
  if b.writer = .waiting then { (if b.oldOnes = [] then swap b else b) with writer := .awake } else b

/-- The exception handler of `run`. -/
def stopWriter : Bridge D :=
  { b with stop_ := true, newOnes := [], oldOnes := [], cache_ := false, writer := .exited }

/-- The loop's body up to the next `wait_for`: send `oldOnes`, or ping the server. -/
def write : Bridge D :=
  if b.writer = .awake then
    if b.oldOnes = [] then { b with writer := .waiting }
    else
      let batch := b.oldOnes.map (deref b.mem)
      let b := proxyAddEntries batch b
      if encodes batch then { b with oldOnes := [], writer := .waiting } else stopWriter b
  else b

/-- `flush_`: both lists go out as one batch. They are empty afterwards even if the encoder refuses. -/
def flush_ : Bridge D :=
  if b.cache_ then { proxyAddEntries b.pending b with oldOnes := [], newOnes := [] } else b

/-- `Flush` waits for `mutex_`, so it does not happen while the writer is awake. -/
def Flush (b : Bridge D) : Bridge D := if b.writer = .awake then b else flush_ b

/-! ## Runs -/

/-- What one thread does at a time. -/
inductive Action (D : Type)
  | addEntries (c : Batch D) (write_trigger_ : Nat) (locked : Bool)
  | wake
  | write
  | Flush

/-- The bridge after an action. -/
def step (max_entries cluster_multiplier_ : Nat) (b : Bridge D) : Action D → Bridge D
  | .addEntries c write_trigger_ locked => addEntries max_entries cluster_multiplier_ c write_trigger_ locked b
  | .wake => wake b
  | .write => write b
  | .Flush => Flush b

/-- A bridge with a connection, before its writer thread does anything. -/
def init (mem : Bool → Nat → D) : Bridge D := { mem }

/-! ## What is asked of a run -/

/-- All of them are of one SCO. -/
def OneSCO (scos : List SCO) : Prop := ∀ s ∈ scos, ∀ t ∈ scos, s = t

/-- The SCOs of a batch. -/
def scosOf (batch : List (Entry D)) : List SCO := batch.map (·.cli_.sco)

/-- `Flush` gets the mutex and returns. -/
def Flushes (b : Bridge D) (a : Action D) : Prop := (match a with | .Flush => True | _ => False) ∧ b.writer ≠ .awake

/-- What the step leads to is as the bridge promises: the batches handed over are a beginning of
what was accepted, each of one SCO, and after a flush everything accepted was sent. -/
structure Delivers (max_entries cluster_multiplier_ : Nat) (b : Bridge D) (a : Action D) : Prop where
  inOrder : (step max_entries cluster_multiplier_ b a).handed.flatten <+:
    (step max_entries cluster_multiplier_ b a).accepted
  oneSCO : ∀ batch ∈ (step max_entries cluster_multiplier_ b a).handed, OneSCO (scosOf batch)
  flushed : Flushes b a → (step max_entries cluster_multiplier_ b a).sent.flatten =
    (step max_entries cluster_multiplier_ b a).accepted

/-- No flush while the two lists together hold entries of different SCOs. -/
def Timely (a : Action D) : Prop := Flushes b a → OneSCO (scosOf b.pending)

/-! ## The two buffers -/

/-- The entries of a list point into that list's buffer, those of `newOnes` at slots in use. -/
structure Layout (b : Bridge D) : Prop where
  old : ∀ r ∈ b.oldOnes, r.block = !b.newData
  new : ∀ r ∈ b.newOnes, r.block = b.newData ∧ r.slot < b.newOnes.length

variable {b : Bridge D}

theorem addEntry_layout (hb : Layout b) (e : Entry D) : Layout (addEntry b e) := by
  refine ⟨hb.old, ?_⟩
  intro r hr
  simp only [addEntry, length_append, length_singleton] at hr ⊢
  rcases mem_append.mp hr with h | h
  · obtain ⟨hblock, hslot⟩ := hb.new r h
    exact ⟨hblock, by omega⟩
  · obtain rfl := mem_singleton.mp h
    exact ⟨rfl, by simp⟩

theorem addEntry_pending (hb : Layout b) (e : Entry D) : (addEntry b e).pending = b.pending ++ [e] := by
  have hkept : ∀ r ∈ b.oldOnes ++ b.newOnes, deref (addEntry b e).mem r = deref b.mem r := by
    intro r hr
    have hfree : ¬ (r.block = b.newData ∧ r.slot = b.newOnes.length) := by
      rintro ⟨hblock, hslot⟩
      rcases mem_append.mp hr with h | h
      · rw [hb.old r h] at hblock
        exact Bool.not_not_eq.mpr rfl hblock
      · have := (hb.new r h).2
        omega
    simp only [deref, addEntry, if_neg hfree]
  have hnew : deref (addEntry b e).mem ⟨e.cli_, e.lba_, b.newData, b.newOnes.length⟩ = e := by
    simp [deref, addEntry]
  show ((b.oldOnes ++ (b.newOnes ++ [_])).map _) = _
  rw [← append_assoc, map_append, map_congr_left hkept, map_singleton, hnew]
  rfl

theorem foldl_addEntry : ∀ (es : List (Entry D)) (b : Bridge D), Layout b →
    ∃ mem newOnes, es.foldl addEntry b = { b with mem, newOnes } ∧ Layout (es.foldl addEntry b) ∧
      (es.foldl addEntry b).pending = b.pending ++ es ∧
      newOnes.map (·.cli_.sco) = b.newOnes.map (·.cli_.sco) ++ scosOf es
  | [], b, hb => ⟨b.mem, b.newOnes, rfl, hb, by simp, by simp [scosOf]⟩
  | e :: es, b, hb => by
    obtain ⟨mem, newOnes, heq, hl, hp, hs⟩ := foldl_addEntry es (addEntry b e) (addEntry_layout hb e)
    refine ⟨mem, newOnes, heq, hl, ?_, ?_⟩
    · rw [foldl_cons, hp, addEntry_pending hb]
      simp
    · rw [hs]
      simp [addEntry, scosOf]

/-! ## The invariant -/

/-- The state between two actions of a run in which every flush was timely. -/
structure Inv (b : Bridge D) : Prop where
  running : b.stop_ = false
  cache : b.cache_ = true
  layout : Layout b
  accepted : b.accepted = b.handed.flatten ++ b.pending
  sent : b.sent = b.handed
  handed : ∀ batch ∈ b.handed, OneSCO (scosOf batch)
  old : OneSCO (b.oldOnes.map (·.cli_.sco))
  new : OneSCO (b.newOnes.map (·.cli_.sco))

theorem Inv.flags (hb : Inv b) (t : Bool) (w : Writer) : Inv { b with throttling := t, writer := w } :=
  ⟨hb.running, hb.cache, ⟨hb.layout.old, hb.layout.new⟩, hb.accepted, hb.sent, hb.handed, hb.old, hb.new⟩

theorem oneSCO_nil : OneSCO [] := by
  intro s hs
  exact absurd hs (by simp)

theorem init_inv (mem : Bool → Nat → D) : Inv (init mem) where
  running := rfl
  cache := rfl
  layout := ⟨by simp [init], by simp [init]⟩
  accepted := rfl
  sent := rfl
  handed := by simp [init]
  old := oneSCO_nil
  new := oneSCO_nil

theorem scosOf_deref (mem : Bool → Nat → D) (l : List Ref) : scosOf (l.map (deref mem)) = l.map (·.cli_.sco) := by
  simp [scosOf, deref]

theorem encodes_of_oneSCO {batch : List (Entry D)} (h : OneSCO (scosOf batch)) : encodes batch = true := by
  unfold encodes
  cases hb : batch with
  | nil => rfl
  | cons e es =>
    rw [hb] at h
    have hl : (e :: es).getLast (cons_ne_nil e es) ∈ e :: es := getLast_mem _
    have := h _ (mem_map_of_mem mem_cons_self) _ (mem_map_of_mem hl)
    rw [List.getLast?_eq_getLast_of_ne_nil (cons_ne_nil e es)]
    simpa using this

theorem swap_inv (hb : Inv b) (h : b.oldOnes = []) : Inv (swap b) where
  __ := hb
  layout := ⟨fun r hr => by simpa [swap] using (hb.layout.new r hr).1, fun r hr => by simp [swap, h] at hr⟩
  accepted := by
    have := hb.accepted
    simpa [swap, Bridge.pending, h] using this
  old := hb.new
  new := hb.old

theorem oneSCO_of_forall {scos : List SCO} {t : SCO} (h : ∀ s ∈ scos, s = t) : OneSCO scos :=
  fun s hs s' hs' => (h s hs).trans (h s' hs').symm

theorem scosOf_entries (c : Batch D) (cm : Nat) : scosOf (c.entries cm) = (c.locs.take c.num_locs).map (·.sco) := by
  apply ext_getElem?
  intro i
  simp only [scosOf, Batch.entries, List.getElem?_map, List.getElem?_mapIdx, Option.map_map]
  rfl

theorem oneSCO_of_not_newSCO {c : Batch D} (cm : Nat) (hb : OneSCO (b.newOnes.map (·.cli_.sco)))
    (h : newSCO c b = false) : OneSCO (b.newOnes.map (·.cli_.sco) ++ scosOf (c.entries cm)) := by
  rw [scosOf_entries]
  cases hf : c.locs.head? with
  | none =>
    rw [List.head?_eq_none_iff.mp hf]
    simpa using hb
  | some f =>
    have hnew : ∀ r ∈ b.newOnes, r.cli_.sco = f.sco := by
      intro r hr
      have hlast := List.getLast?_eq_getLast_of_ne_nil (ne_nil_of_mem hr)
      have heq : (b.newOnes.getLast (ne_nil_of_mem hr)).cli_.sco = f.sco := by
        simpa [newSCO, hlast, hf] using h
      rw [← heq]
      exact hb _ (mem_map_of_mem hr) _ (mem_map_of_mem (getLast_mem _))
    apply oneSCO_of_forall (t := f.sco)
    intro s hs
    rcases mem_append.mp hs with hs | hs
    · obtain ⟨r, hr, rfl⟩ := mem_map.mp hs
      exact hnew r hr
    · obtain ⟨l, hl, rfl⟩ := mem_map.mp hs
      exact c.one_sco l hl f hf

/-! ## One step -/

theorem maybe_swap_inv (hb : Inv b) (new_sco : Bool) (trigger : Nat) (locked : Bool) :
    Inv (maybe_swap_ new_sco trigger locked b) := by
  unfold maybe_swap_
  split
  · rename_i h
    exact swap_inv hb h.2.2.2
  · exact hb

theorem accept_inv {c : Batch D} (hb : Inv b) (cm : Nat) (h : newSCO c b = false) : Inv (accept (c.entries cm) b) := by
  obtain ⟨mem, newOnes, heq, hl, hp, hs⟩ := foldl_addEntry (c.entries cm) b hb.layout
  unfold accept
  rw [heq] at hl hp ⊢
  refine ⟨hb.running, hb.cache, ⟨hl.old, hl.new⟩, ?_, hb.sent, hb.handed, hb.old, ?_⟩
  · show b.accepted ++ c.entries cm = b.handed.flatten ++ Bridge.pending { b with mem, newOnes }
    rw [hp, hb.accepted, append_assoc]
  · show OneSCO (newOnes.map (·.cli_.sco))
    rw [hs]
    exact oneSCO_of_not_newSCO cm hb.new h

theorem addEntries_inv (hb : Inv b) (max cm : Nat) (c : Batch D) (trigger : Nat) (locked : Bool) :
    Inv (addEntries max cm c trigger locked b) := by
  unfold addEntries
  split
  · exact hb
  rw [if_neg (by rw [hb.running]; exact Bool.false_ne_true)]
  apply maybe_swap_inv
  split
  · exact hb.flags _ b.writer
  · rename_i h
    apply accept_inv (hb.flags _ b.writer)
    simp only [Bool.or_eq_true, not_or, Bool.not_eq_true] at h
    exact h.2

theorem wake_inv (hb : Inv b) : Inv (wake b) := by
  unfold wake
  split
  · apply Inv.flags
    split
    · rename_i h
      exact swap_inv hb h
    · exact hb
  · exact hb

theorem proxyAddEntries_inv {batch : List (Entry D)} {ns : List Ref} (w : Writer) (hb : Inv b)
    (hone : OneSCO (scosOf batch)) (hp : b.pending = batch ++ ns.map (deref b.mem)) (hns : ns = b.newOnes ∨ ns = []) :
    Inv { proxyAddEntries batch b with oldOnes := [], newOnes := ns, writer := w } where
  __ := hb
  layout := by
    refine ⟨by simp, ?_⟩
    rcases hns with rfl | rfl
    · exact hb.layout.new
    · simp
  accepted := by
    show b.accepted = (b.handed ++ [batch]).flatten ++ ([] ++ ns).map (deref b.mem)
    rw [hb.accepted, hp]
    simp
  sent := by
    show (if encodes batch then b.sent ++ [batch] else b.sent) = b.handed ++ [batch]
    rw [if_pos (encodes_of_oneSCO hone), hb.sent]
  handed := by
    intro batch' hmem
    rcases mem_append.mp hmem with h | h
    · exact hb.handed batch' h
    · obtain rfl := mem_singleton.mp h
      exact hone
  old := oneSCO_nil
  new := by
    rcases hns with rfl | rfl
    · exact hb.new
    · exact oneSCO_nil

theorem write_inv (hb : Inv b) : Inv (write b) := by
  unfold write
  split
  · split
    · exact hb.flags b.throttling .waiting
    · have hone : OneSCO (scosOf (b.oldOnes.map (deref b.mem))) := by rw [scosOf_deref]; exact hb.old
      rw [if_pos (encodes_of_oneSCO hone)]
      exact proxyAddEntries_inv .waiting hb hone (map_append ..) (.inl rfl)
  · exact hb

theorem Flush_eq (hb : Inv b) (h : b.writer ≠ .awake) :
    Flush b = { proxyAddEntries b.pending b with oldOnes := [], newOnes := [] } := by
  unfold Flush flush_
  rw [if_neg h, if_pos hb.cache]

theorem Flush_inv (hb : Inv b) (h : b.writer ≠ .awake → OneSCO (scosOf b.pending)) : Inv (Flush b) := by
  by_cases hw : b.writer = .awake
  · unfold Flush
    rw [if_pos hw]
    exact hb
  · rw [Flush_eq hb hw]
    exact proxyAddEntries_inv b.writer hb (h hw) (by simp) (.inr rfl)

section
variable (max_entries cluster_multiplier_ : Nat)

theorem step_inv (b : Bridge D) (a : Action D) (hb : Inv b) (h : Timely b a) :
    Inv (step max_entries cluster_multiplier_ b a) := by
  cases a with
  | addEntries c trigger locked => exact addEntries_inv hb max_entries cluster_multiplier_ c trigger locked
  | wake => exact wake_inv hb
  | write => exact write_inv hb
  | Flush => exact Flush_inv hb fun hw => h ⟨trivial, hw⟩

theorem delivers_iff_timely (b : Bridge D) (a : Action D) (hb : Inv b) :
    Delivers max_entries cluster_multiplier_ b a ↔ Timely b a := by
  constructor
  · rintro h ⟨hf, hw⟩
    cases a with
    | Flush =>
      -- the batch of the flush is among those handed over
      apply h.oneSCO b.pending
      show b.pending ∈ (Flush b).handed
      rw [Flush_eq hb hw]
      exact mem_append_right _ (mem_singleton_self _)
    | addEntries | wake | write => exact hf.elim
  · intro h
    have hinv := step_inv max_entries cluster_multiplier_ b a hb h
    refine ⟨?_, hinv.handed, ?_⟩
    · rw [hinv.accepted]
      exact prefix_append _ _
    · rintro ⟨hf, hw⟩
      rw [hinv.sent, hinv.accepted]
      cases a with
      | Flush =>
        show _ = (Flush b).handed.flatten ++ (Flush b).pending
        simp [step, Bridge.pending, Flush_eq hb hw]
      | addEntries | wake | write => exact hf.elim

/-- The bridge delivers along a run exactly when no flush of it finds entries of different SCOs
in its two lists. -/
theorem delivers_what_was_added_iff (mem : Bool → Nat → D) (as : List (Action D)) :
    Each (step max_entries cluster_multiplier_) (Delivers max_entries cluster_multiplier_) (init mem) as ↔
      Each (step max_entries cluster_multiplier_) Timely (init mem) as :=
  each_iff Inv (delivers_iff_timely max_entries cluster_multiplier_) (step_inv max_entries cluster_multiplier_)
    (init_inv mem)

end

namespace Sample

/-- One cluster, at the start of a SCO. -/
def batch (number : Nat) : Batch Unit where
  locs := [⟨⟨number, 0, 0⟩, 0⟩]
  num_locs := 1
  start_address := 0
  data := fun _ => ()
  le := Nat.le_refl 1
  one_sco := by simp

/-- The writer waits; a cluster of SCO 1 is swapped to `oldOnes`, one of SCO 2 stays in `newOnes`;
the volume flushes. -/
def run : List (Action Unit) := [.write, .addEntries (batch 1) 1 true, .addEntries (batch 2) 1 true, .Flush]

end Sample

/-- Both clusters were accepted; the flush hands them over as one batch, which the encoder refuses,
and nothing is sent. -/
theorem flush_mixes_SCOs :
    scosOf (runs (step 8 8) (init fun _ _ => ()) Sample.run).accepted = [⟨1, 0, 0⟩, ⟨2, 0, 0⟩] ∧
      (runs (step 8 8) (init fun _ _ => ()) Sample.run).handed.map scosOf = [[⟨1, 0, 0⟩, ⟨2, 0, 0⟩]] ∧
      (runs (step 8 8) (init fun _ _ => ()) Sample.run).sent.map scosOf = [] ∧
      (runs (step 8 8) (init fun _ _ => ()) Sample.run).pending.map (·.cli_) = [] := by
  refine ⟨?_, ?_, ?_, ?_⟩ <;> decide

end AsyncBridge

end VolumeDriver
