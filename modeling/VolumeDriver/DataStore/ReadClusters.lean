/-
Reading clusters (`DataStoreNG::readClusters`): descriptors of clusters that follow each other in
one SCO and in the buffer are read together. A SCO is read from its list of clusters, wherever the
SCO is (in the SCO cache, with the DTL or on the backend); counters and the backend's partial reads
are left out.
-/
import VolumeDriver.DataStore.Consistent

namespace VolumeDriver

open Lib List

/-- A cluster to read and its place in the buffer. -/
structure ClusterReadDescriptor where
  loc_and_hash : ClusterLocationAndHash
  ca : ClusterAddress
  /-- The place of the cluster in the buffer, in clusters. -/
  index : Nat
  deriving DecidableEq, Repr

namespace ClusterReadDescriptor

/-- Its location. -/
def loc (c : ClusterReadDescriptor) : ClusterLocation := c.loc_and_hash.clusterLocation

/-- `cur` goes on where the clusters from `start` on end: `i` of them, of which `prev` is the last. -/
def Follows (start prev : ClusterReadDescriptor) (i : Nat) (cur : ClusterReadDescriptor) : Prop :=
  start.loc.sco.number = cur.loc.sco.number ∧ start.loc.sco.version = cur.loc.sco.version ∧
    start.loc.sco.cloneID = cur.loc.sco.cloneID ∧ start.loc.offset + i = cur.loc.offset ∧ prev.index + 1 = cur.index

instance (start prev : ClusterReadDescriptor) (i : Nat) (cur : ClusterReadDescriptor) :
    Decidable (Follows start prev i cur) :=
  inferInstanceAs (Decidable (_ ∧ _))

/-- How many of the descriptors go on behind the `i` clusters from `start` on. -/
def adjacent (start : ClusterReadDescriptor) : ClusterReadDescriptor → Nat → List ClusterReadDescriptor → Nat
  | _, _, [] => 0
  | prev, i, cur :: descs => if Follows start prev i cur then adjacent start cur (i + 1) descs + 1 else 0

end ClusterReadDescriptor

namespace DataStoreNG

variable {D : Type}

/-- A read past the end of the SCO is reported as an I/O error. -/
def read_adjacent_clusters_ (desc : ClusterReadDescriptor) (num_clusters : Nat) : M D (List D) := do
  let d ← get
  if (((d.scos desc.loc.sco.number).drop desc.loc.offset).take num_clusters).length = num_clusters then
    pure (((d.scos desc.loc.sco.number).drop desc.loc.offset).take num_clusters)
  else
    throw .transientException

/-- The loop over the descriptors, with the clusters in their order. -/
def readGroups : Nat → List ClusterReadDescriptor → M D (List D)
  | _, [] => pure []
  | 0, _ :: _ => pure []
  | turns + 1, start :: descs => do
    let read ← read_adjacent_clusters_ start (start.adjacent start 1 descs + 1)
    let rest ← readGroups turns (descs.drop (start.adjacent start 1 descs))
    pure (read ++ rest)

/-- Each turn reads at least one cluster. -/
def readClusters (descs : List ClusterReadDescriptor) : M D (List D) := readGroups descs.length descs

/-! ## What is read -/

section
variable {d : DataStoreNG D} {value : ClusterReadDescriptor → D}

/-- The SCO has the cluster of the descriptor. -/
def Has (d : DataStoreNG D) (value : ClusterReadDescriptor → D) (c : ClusterReadDescriptor) : Prop :=
  (d.scos c.loc.sco.number)[c.loc.offset]? = some (value c)

theorem take_adjacent (start : ClusterReadDescriptor) : ∀ descs (prev : ClusterReadDescriptor) i,
    (∀ c ∈ descs, Has d value c) →
    ((d.scos start.loc.sco.number).drop (start.loc.offset + i)).take (start.adjacent prev i descs) =
      (descs.take (start.adjacent prev i descs)).map value
  | [], _, _, _ => by simp [ClusterReadDescriptor.adjacent]
  | cur :: descs, prev, i, h => by
    rw [ClusterReadDescriptor.adjacent]
    split
    · next hf =>
      obtain ⟨hnumber, -, -, hoffset, -⟩ := hf
      have ih := take_adjacent start descs cur (i + 1) fun c hc => h c (mem_cons_of_mem cur hc)
      have hcur : (d.scos start.loc.sco.number)[start.loc.offset + i]? = some (value cur) := by
        rw [hnumber, hoffset]
        exact h cur (mem_cons_self ..)
      obtain ⟨hlt, hval⟩ := List.getElem?_eq_some_iff.mp hcur
      rw [drop_eq_getElem_cons hlt, take_succ_cons, take_succ_cons, map_cons, hval, ← ih]
      rfl
    · rfl

theorem adjacent_le (start : ClusterReadDescriptor) : ∀ descs (prev : ClusterReadDescriptor) i,
    start.adjacent prev i descs ≤ descs.length
  | [], _, _ => Nat.le_refl _
  | cur :: descs, prev, i => by
    rw [ClusterReadDescriptor.adjacent]
    split
    · exact Nat.succ_le_succ (adjacent_le start descs cur (i + 1))
    · exact Nat.zero_le _

theorem read_adjacent_clusters_ok (start : ClusterReadDescriptor) (descs : List ClusterReadDescriptor)
    (h : ∀ c ∈ start :: descs, Has d value c) :
    read_adjacent_clusters_ start (start.adjacent start 1 descs + 1) d =
      .ok (value start :: (descs.take (start.adjacent start 1 descs)).map value) d := by
  obtain ⟨hstart, hdescs⟩ := forall_mem_cons.mp h
  obtain ⟨hlt, hval⟩ := List.getElem?_eq_some_iff.mp hstart
  have hread : ((d.scos start.loc.sco.number).drop start.loc.offset).take (start.adjacent start 1 descs + 1) =
      value start :: (descs.take (start.adjacent start 1 descs)).map value := by
    rw [drop_eq_getElem_cons hlt, take_succ_cons, hval, ← take_adjacent start descs start 1 hdescs]
  refine run_get_bind.trans ?_
  have hlen : (value start :: (descs.take (start.adjacent start 1 descs)).map value).length =
      start.adjacent start 1 descs + 1 := by
    rw [length_cons, length_map, length_take, Nat.min_eq_left (adjacent_le start descs start 1)]
  rw [hread, if_pos hlen]
  rfl

theorem readGroups_ok : ∀ (turns : Nat) (descs : List ClusterReadDescriptor), descs.length ≤ turns →
    (∀ c ∈ descs, Has d value c) → readGroups turns descs d = .ok (descs.map value) d
  | _, [], _, _ => by rw [readGroups]; rfl
  | turns + 1, start :: descs, hlen, h => by
    rw [readGroups, run_bind (read_adjacent_clusters_ok start descs h)]
    have hrest : (descs.drop (start.adjacent start 1 descs)).length ≤ turns := by
      rw [length_drop]
      rw [length_cons] at hlen
      omega
    rw [run_bind (readGroups_ok turns _ hrest fun c hc => h c (mem_cons_of_mem _ (mem_of_mem_drop hc)))]
    show EStateM.Result.ok (value start :: (descs.take _).map value ++ (descs.drop _).map value) d = _
    rw [cons_append, ← map_append, take_append_drop]
    rfl

/-- Grouping does not show: every descriptor gets the cluster at its location. -/
theorem readClusters_ok {descs : List ClusterReadDescriptor} (h : ∀ c ∈ descs, Has d value c) :
    readClusters descs d = .ok (descs.map value) d :=
  readGroups_ok _ _ (Nat.le_refl _) h

end

end DataStoreNG

end VolumeDriver
