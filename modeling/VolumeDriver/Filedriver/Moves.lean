/-
Files that move between nodes. The nodes share the backend; each has its own container objects and its own
extent cache. A node that gives a file away drops the file's extents from its cache but keeps the container
object, and a node that gets one restarts the container from a listing of the backend, unless it has a
container object of the file already.
-/
import VolumeDriver.Filedriver.Contents
import Mathlib.Data.List.Induction
import Mathlib.Data.List.TakeWhile

namespace VolumeDriver.Filedriver

open Lib Function List State Nat

/-! ## Names of extents -/

/-- The name of an object or of a container. -/
abbrev Name := List Char

/-- The last `width` hexadecimal digits of a number, as `std::hex` writes them. -/
def hex : Nat → Nat → Name
  | 0, _ => []
  | width + 1, n => hex width (n / 16) ++ [digitChar (n % 16)]

/-- The value of a hexadecimal digit. -/
def hexValue (c : Char) : Option Nat :=
  if '0' ≤ c ∧ c ≤ '9' then some (c.toNat - '0'.toNat)
  else if 'a' ≤ c ∧ c ≤ 'f' then some (c.toNat - 'a'.toNat + 10)
  else if 'A' ≤ c ∧ c ≤ 'F' then some (c.toNat - 'A'.toNat + 10)
  else none

/-- The number that the leading digits of a text make up. -/
def readHex (acc : Nat) : Name → Nat
  | [] => acc
  | c :: cs =>
    match hexValue c with
    | some d => readHex (16 * acc + d) cs
    | none => acc

/-- The base, which `std::hex` allows before the digits. One is skipped; libstdc++ skips it also when repeated. -/
def skipBase : Name → Name
  | '0' :: 'x' :: cs | '0' :: 'X' :: cs => cs
  | cs => cs

/-- `operator>>` for a `uint32_t` with `std::hex`: blanks, a sign, the base and then digits; 0 if there is
none (for nothing but blanks the source leaves the number as it was, uninitialised). -/
def extractHex (text : Name) : Nat :=
  match text.dropWhile fun c => c = ' ' || 9 ≤ c.toNat && c.toNat ≤ 13 with
  | '-' :: cs => (2 ^ 32 - readHex 0 (skipBase cs)) % 2 ^ 32
  | '+' :: cs => readHex 0 (skipBase cs)
  | cs => readHex 0 (skipBase cs)

/-- An extent of a container. -/
structure ExtentId where
  container_id : Name
  offset : Nat
  deriving DecidableEq

/-- Why a name is none of an extent. -/
inductive NotAnExtentId
  | tooShort
  | wrongSeparator
  deriving DecidableEq

namespace ExtentId

/-- What stands between the two parts of a name. -/
def separator_ : Name := ['.']

/-- The number of digits in a name. -/
def suffix_size_ : Nat := 8

/-- The name of the extent's object. -/
def str (eid : ExtentId) : Name := eid.container_id ++ separator_ ++ hex suffix_size_ eid.offset

/-- `ExtentId(const std::string&)`. -/
def ofName (str : Name) : Except NotAnExtentId ExtentId := do
  verify (separator_.length + suffix_size_ ≤ str.length) .tooShort
  let cid_size := str.length - suffix_size_ - separator_.length
  let sep := (str.drop cid_size).take separator_.length
  verify (sep = separator_) .wrongSeparator
  pure ⟨str.take cid_size, extractHex (str.drop (cid_size + sep.length))⟩

theorem hexValue_digitChar {d : Nat} (h : d < 16) : hexValue (digitChar d) = some d :=
  (by decide : ∀ d : Fin 16, hexValue (digitChar d) = some d.val) ⟨d, h⟩

theorem length_hex : ∀ width n : Nat, (hex width n).length = width
  | 0, _ => rfl
  | width + 1, n => by simp [hex, length_hex width]

theorem readHex_hex : ∀ (width n acc : Nat) (rest : Name),
    readHex acc (hex width n ++ rest) = readHex (16 ^ width * acc + n % 16 ^ width) rest
  | 0, n, acc, rest => by simp [hex, Nat.mod_one]
  | width + 1, n, acc, rest => by
    have hdigit := hexValue_digitChar (Nat.mod_lt n (show 0 < 16 by omega))
    have hmod : n % 16 ^ (width + 1) = n % 16 + 16 * (n / 16 % 16 ^ width) := by
      rw [Nat.pow_succ, Nat.mul_comm, Nat.mod_mul]
    unfold hex
    rw [append_assoc, readHex_hex width (n / 16) acc]
    simp only [cons_append, nil_append, readHex, hdigit]
    congr 1
    rw [hmod, Nat.pow_succ, Nat.mul_comm (16 ^ width) 16, Nat.mul_assoc]
    omega

/-- The texts that `std::hex` writes. -/
def Digits (text : Name) : Prop := ∀ c ∈ text, ∃ d < 16, c = digitChar d

theorem digits_hex : ∀ width n : Nat, Digits (hex width n)
  | 0, _ => nofun
  | width + 1, n => by
    intro c hc
    rcases mem_append.1 hc with hc | hc
    · exact digits_hex width (n / 16) c hc
    · exact ⟨n % 16, mod_lt _ (by decide), mem_singleton.1 hc⟩

theorem extractHex_of_digits {text : Name} (h : Digits text) : extractHex text = readHex 0 text := by
  have hplain : ∀ c ∈ text, c ∉ [' ', '-', '+', 'x', 'X'] ∧ ¬(9 ≤ c.toNat ∧ c.toNat ≤ 13) := by
    intro c hc
    obtain ⟨d, hd, rfl⟩ := h c hc
    exact (by decide : ∀ d : Fin 16, digitChar d ∉ [' ', '-', '+', 'x', 'X'] ∧
      ¬(9 ≤ (digitChar d).toNat ∧ (digitChar d).toNat ≤ 13)) ⟨d, hd⟩
  have hdrop : (text.dropWhile fun c => c = ' ' || 9 ≤ c.toNat && c.toNat ≤ 13) = text := by
    rw [dropWhile_eq_self_iff]
    intro hlt
    have := hplain _ (getElem_mem hlt)
    simp_all
  have hbase : skipBase text = text := by
    unfold skipBase
    split
    · exact absurd (by simp) (hplain 'x' (by simp)).1
    · exact absurd (by simp) (hplain 'X' (by simp)).1
    · rfl
  unfold extractHex
  rw [hdrop]
  split
  · exact absurd (by simp) (hplain '-' (by simp)).1
  · exact absurd (by simp) (hplain '+' (by simp)).1
  · rw [hbase]

theorem readHex_append {ds : Name} (h : Digits ds) (acc : Nat) (rest : Name) :
    readHex acc (ds ++ rest) = readHex (readHex acc ds) rest := by
  induction ds generalizing acc with
  | nil => rfl
  | cons c ds ih =>
    obtain ⟨d, hd, rfl⟩ := h c mem_cons_self
    simp only [cons_append, readHex, hexValue_digitChar hd]
    exact ih (fun c hc => h c (mem_cons_of_mem _ hc)) _

theorem hex_readHex {ds : Name} (h : Digits ds) : hex ds.length (readHex 0 ds) = ds := by
  induction ds using reverseRecOn with
  | nil => rfl
  | append_singleton ds c ih =>
    have hds : Digits ds := fun x hx => h x (mem_append_left _ hx)
    obtain ⟨d, hd, rfl⟩ := h c (by simp)
    rw [readHex_append hds, length_append, length_singleton, hex]
    simp only [readHex, hexValue_digitChar hd]
    rw [show (16 * readHex 0 ds + d) / 16 = readHex 0 ds by omega, ih hds, mul_add_mod, mod_eq_of_lt hd]

theorem ofName_append (cid : Name) {suffix : Name} (h : suffix.length = suffix_size_) :
    ofName (cid ++ separator_ ++ suffix) = .ok ⟨cid, extractHex suffix⟩ := by
  have hlen : (cid ++ separator_ ++ suffix).length = cid.length + 1 + 8 := by simp [separator_, h, suffix_size_]
  have hcid : (cid ++ separator_ ++ suffix).length - suffix_size_ - separator_.length = cid.length := by
    rw [hlen]
    simp [suffix_size_, separator_]
  have hsep : ((cid ++ separator_ ++ suffix).drop cid.length).take separator_.length = separator_ := by
    simp [separator_]
  unfold ofName
  rw [verify_of (by rw [hlen]; simp [suffix_size_, separator_]), ok_bind]
  dsimp only
  rw [hcid, hsep, verify_of rfl, ok_bind, ← length_append, drop_left, append_assoc, take_left]
  rfl

theorem ofName_str (eid : ExtentId) : ofName eid.str = .ok ⟨eid.container_id, eid.offset % 2 ^ 32⟩ := by
  have hoffset := readHex_hex suffix_size_ eid.offset 0 []
  rw [append_nil] at hoffset
  rw [str, ofName_append _ (length_hex ..), extractHex_of_digits (digits_hex _ _), hoffset]
  simp [readHex, suffix_size_]

theorem ofName_ok {s : Name} {eid : ExtentId} (h : ofName s = .ok eid) :
    ∃ suffix, suffix.length = suffix_size_ ∧ s = eid.container_id ++ separator_ ++ suffix ∧
      eid.offset = extractHex suffix := by
  obtain ⟨hlen, h⟩ := verify_bind_ok h
  obtain ⟨hsep, h⟩ := verify_bind_ok h
  cases h
  refine ⟨_, ?_, ?_, rfl⟩
  · rw [length_drop, hsep]
    omega
  · conv_lhs => rw [← take_append_drop (s.length - suffix_size_ - separator_.length) s,
      ← take_append_drop separator_.length (s.drop _), hsep, drop_drop]
    rw [hsep, append_assoc]

end ExtentId

/-! ## Restarting a container -/

namespace State

variable (s : State)

/-- `erase_extents_(false)`: the local files of the extents go. -/
def erase_extents_ : State :=
  { s with cache := ((List.range s.extents_.length).filter s.extent_exists_).foldl ExtentCache.erase s.cache }

/-- `Container::drop_from_cache`. -/
def drop_from_cache : State := s.erase_extents_

/-- What a restart makes of an object that was listed. Names that are no extents are skipped. -/
def listed (id : Name) (s : State) (o : Name) : State :=
  match ExtentId.ofName o with
  | .ok eid => if eid.container_id = id then s.mark eid.offset else s
  | .error _ => s

/-- The size that a restart computes, from the last extent before `i` that exists. -/
def sizeBefore : Nat → Nat
  | 0 => 0
  | i + 1 =>
    if s.extent_exists_ i then ((s.backend i).getD []).length + (if 0 < i then (i - 1) * Extent.capacity else 0)
    else sizeBefore i

/-- `Container::restart`, with the objects that the backend lists. -/
def restart (id : Name) (objs : List Name) : State :=
  let s := objs.foldl (listed id) { s.erase_extents_ with extents_ := [], size_ := 0 }
  { s with size_ := s.sizeBefore s.extents_.length }

open ExtentId

/-- A name that is read as an extent is its name, and a restart takes only such names for extents of its container. -/
structure Faithful (s : Name) : Prop where
  str : ∀ eid, ofName s = .ok eid → eid.str = s
  restart : ∀ id st, listed id st s = st ∨ ∃ off, s = (ExtentId.mk id off).str ∧ listed id st s = st.mark off

/-- Every extent is read back from its name; and a text is read as its own name exactly if what stands in place of the
digits are digits as they are written. -/
theorem extent_names_iff (s : Name) :
    ((∀ cid off, off < 2 ^ 32 → ofName (ExtentId.mk cid off).str = .ok ⟨cid, off⟩) ∧ Faithful s) ↔
      ∀ cid suffix, s = cid ++ separator_ ++ suffix → suffix.length = suffix_size_ → Digits suffix := by
  constructor
  · rintro ⟨_, h⟩ cid suffix rfl hlen
    have hstr := h.str _ (ofName_append cid hlen)
    rw [ExtentId.str, append_cancel_left_eq] at hstr
    exact hstr ▸ digits_hex _ _
  · intro h
    have hname : ∀ eid, ofName s = .ok eid → eid.str = s := by
      intro eid heid
      obtain ⟨suffix, hlen, rfl, hoff⟩ := ofName_ok heid
      have hd := h _ suffix rfl hlen
      rw [ExtentId.str, hoff, extractHex_of_digits hd, ← hlen, hex_readHex hd]
    refine ⟨fun cid off hoff => ?_, hname, fun id st => ?_⟩
    · rw [ofName_str, mod_eq_of_lt hoff]
    · unfold listed
      split
      · next eid heid =>
        split
        · next hid => exact .inr ⟨eid.offset, hid ▸ (hname eid heid).symm, rfl⟩
        · exact .inl rfl
      · exact .inl rfl

/-- The object `f.metadata` is taken for the extent 0 of `f`. -/
theorem foreign_object_taken :
    ofName "f.metadata".toList = .ok ⟨['f'], 0⟩ ∧ (ExtentId.mk ['f'] 0).str ≠ "f.metadata".toList ∧
      ∀ cache, (listed ['f'] { cache } "f.metadata".toList).extents_ = [true] :=
  ⟨by decide, by decide, fun _ => rfl⟩

end State

/-! ## Nodes -/

/-- What a `Container` object keeps. -/
structure Container where
  size_ : Nat
  extents_ : List Bool
  deriving DecidableEq

/-- The `ContainerManager` of a node: the container object of the file, if there is one, and the extent
cache. -/
structure Node where
  container : Option Container := none
  cache : ExtentCache

/-- The node of a container. -/
def Node.ofState (s : State) : Node := { container := some ⟨s.size_, s.extents_⟩, cache := s.cache }

/-- `ContainerManager::restart`. -/
def Node.restart (node : Node) (objects : Assoc Nat File) (id : Name) (objs : List Name) : Node :=
  match node.container with
  | some _ => node
  | none => Node.ofState (State.restart { cache := node.cache, objects := objects } id objs)

/-- The nodes, which of them owns the file, and the objects of the file on the backend. -/
structure Cluster where
  id : Name
  nodes : Nat → Node
  owner : Nat
  objects : Assoc Nat File := []

/-- What happens to the file; the extents of others are listed with its own. -/
inductive Action
  | call (c : Call)
  | move (node : Nat) (others : List ExtentId)
  | reboot (node : Nat) (others : List ExtentId)
  deriving DecidableEq

namespace Cluster

variable (c : Cluster)

/-- What a call works on: the container object of the owner. -/
def state : Option State :=
  (c.nodes c.owner).container.map fun k =>
    { size_ := k.size_, extents_ := k.extents_, cache := (c.nodes c.owner).cache, objects := c.objects }

/-- The extents of the file and, in the same namespace, those of other files. -/
def listObjects (others : List ExtentId) : List Name :=
  (others.filter fun eid => eid.container_id ≠ c.id).map ExtentId.str ++
    c.objects.map fun p => (ExtentId.mk c.id p.1).str

/-- One node changes. -/
def setNode (n : Nat) (node : Node) : Cluster := { c with nodes := update c.nodes n node }

/-- A node restarts the file. -/
def restart (n : Nat) (others : List ExtentId) : Cluster :=
  c.setNode n ((c.nodes n).restart c.objects c.id (c.listObjects others))

/-- `LocalNode::transfer` on the owner, whose container is `s`. -/
def transfer (s : State) (n : Nat) : Cluster :=
  { c with nodes := update c.nodes c.owner (Node.ofState s.drop_from_cache), owner := n }

/-- A move is a transfer on the old owner and `LocalNode::backend_restart` on the new one. When a process is
restarted, the container objects are gone and its extent cache is cleared; it restarts the files it owns. A
call for a container that does not exist throws. -/
def step (c : Cluster) : Action → Cluster
  | .call call =>
    match c.state with
    | some s => { c.setNode c.owner (Node.ofState (s.call call).2) with objects := (s.call call).2.objects }
    | none => c
  | .move n others =>
    match c.state with
    | some s => (c.transfer s n).restart n others
    | none => c
  | .reboot n others =>
    let c' := c.setNode n { cache := { capacity := (c.nodes n).cache.capacity } }
    if n = c.owner then c'.restart n others else c'

/-- What the owner answers to a call. -/
def answer (call : Call) : Option Answer := c.state.map fun s => (s.call call).1

end Cluster

/-! ## What a restart finds -/

theorem mem_foldl_erase : ∀ (is : List Nat) (cache : ExtentCache) {p : Nat × File},
    p ∈ (is.foldl ExtentCache.erase cache).entries → p ∈ cache.entries ∧ p.1 ∉ is
  | [], _, _, hp => ⟨hp, by simp⟩
  | i :: is, cache, p, hp => by
    obtain ⟨hmem, hnot⟩ := mem_foldl_erase is (cache.erase i) hp
    obtain ⟨hmem, hne⟩ := mem_filter.1 hmem
    refine ⟨hmem, ?_⟩
    rw [mem_cons, not_or]
    exact ⟨by simpa using hne, hnot⟩

variable {s : State} {f : Bytes}

theorem Stored.lt_length (h : Stored s) {j : Nat} (hj : (s.backend j).isSome) : j < s.extents_.length := by
  by_contra hge
  rw [h.backend_beyond (by omega)] at hj
  cases hj

theorem Stored.drop_from_cache (h : Stored s) : s.drop_from_cache.cache.entries = [] := by
  rw [eq_nil_iff_forall_not_mem]
  intro p hp
  obtain ⟨hmem, hnot⟩ := mem_foldl_erase _ _ hp
  have he : s.extent_exists_ p.1 = true := (h.exists_iff p.1).2 (by rw [h.cached p hmem]; rfl)
  have hlt : p.1 < s.extents_.length := h.lt_length (by rw [h.cached p hmem]; rfl)
  exact hnot (mem_filter.2 ⟨mem_range.2 hlt, he⟩)

section
variable (id : Name)

theorem listed_frame (s : State) (o : Name) : ∃ extents, listed id s o = { s with extents_ := extents } := by
  unfold listed mark
  split
  · split
    · exact ⟨_, rfl⟩
    · exact ⟨_, rfl⟩
  · exact ⟨_, rfl⟩

theorem foldl_listed_frame : ∀ (objs : List Name) (s : State),
    ∃ extents, objs.foldl (listed id) s = { s with extents_ := extents }
  | [], s => ⟨s.extents_, rfl⟩
  | o :: objs, s => by
    obtain ⟨extents, h⟩ := listed_frame id s o
    obtain ⟨extents', h'⟩ := foldl_listed_frame objs { s with extents_ := extents }
    refine ⟨extents', ?_⟩
    rw [foldl_cons, h, h']

theorem foldl_listed_exists (j : Nat) : ∀ (objs : List Name) (s : State),
    (objs.foldl (listed id) s).extent_exists_ j = true ↔
      s.extent_exists_ j = true ∨ ∃ o ∈ objs, ExtentId.ofName o = .ok ⟨id, j⟩
  | [], s => by simp
  | o :: objs, s => by
    have hone : (listed id s o).extent_exists_ j = true ↔
        s.extent_exists_ j = true ∨ ExtentId.ofName o = .ok ⟨id, j⟩ := by
      unfold listed
      split
      · next eid heq =>
        rw [heq]
        obtain ⟨cid, off⟩ := eid
        split
        · next hid =>
          subst hid
          rw [mark_exists]
          by_cases hj : j = off
          · simp [hj]
          · simp [hj, Ne.symm hj]
        · next hid => simp [hid]
      · next e heq =>
        rw [heq]
        simp
    rw [foldl_cons, foldl_listed_exists j objs, hone, exists_mem_cons_iff]
    exact or_assoc

theorem foldl_listed_length (bound : Nat) : ∀ (objs : List Name) (s : State), s.extents_.length ≤ bound →
    (∀ o ∈ objs, ∀ j, ExtentId.ofName o = .ok ⟨id, j⟩ → j < bound) →
    (objs.foldl (listed id) s).extents_.length ≤ bound
  | [], _, hs, _ => hs
  | o :: objs, s, hs, hobjs => by
    refine foldl_listed_length bound objs (listed id s o) ?_ fun o' ho' => hobjs o' (mem_cons_of_mem o ho')
    unfold listed
    split
    · next eid heq =>
      split
      · next hid =>
        subst hid
        have := hobjs o (mem_cons_self ..) eid.offset heq
        rw [mark_length]
        omega
      · exact hs
    · exact hs

end

theorem sizeBefore_eq (h : Stored s) {n : Nat} (he : Ends s.backend n) (hn : n ≤ Extent.capacity) :
    s.sizeBefore s.extents_.length = n := by
  -- behind the first extent there would be data behind `n`
  have honly : ∀ idx f, s.backend idx = some f → idx = 0 := by
    intro idx f hf
    by_contra hne
    have hwithin := he.within idx f hf
    have hpos := (he.short idx f hf).1
    have := Nat.le_mul_of_pos_left Extent.capacity (Nat.pos_of_ne_zero hne)
    omega
  have hlater : ∀ i, s.extent_exists_ (i + 1) = false := by
    intro i
    rw [Bool.eq_false_iff, ne_eq, h.exists_iff, Option.isSome_iff_exists]
    rintro ⟨f, hf⟩
    exact Nat.succ_ne_zero i (honly _ f hf)
  have hfirst : ∀ i, s.sizeBefore (i + 1) = s.sizeBefore 1 := by
    intro i
    induction i with
    | zero => rfl
    | succ i ih =>
      rw [sizeBefore, hlater i]
      exact ih
  have hone : s.sizeBefore 1 = n := by
    unfold sizeBefore sizeBefore
    cases hb : s.backend 0 with
    | none =>
      have hnone : s.extent_exists_ 0 = false := by
        rw [Bool.eq_false_iff, ne_eq, h.exists_iff, hb]
        simp
      rw [hnone]
      rcases he.reached with rfl | ⟨idx, f, hf, -⟩
      · rfl
      · obtain rfl := honly idx f hf
        rw [hb] at hf
        cases hf
    | some f =>
      have hsome : s.extent_exists_ 0 = true := (h.exists_iff 0).2 (by rw [hb]; rfl)
      rw [hsome]
      rcases he.reached with rfl | ⟨idx, g, hg, hend⟩
      · have := he.within 0 f hb
        have := (he.short 0 f hb).1
        omega
      · obtain rfl := honly idx g hg
        rw [hb] at hg
        cases hg
        simpa using hend
  cases hlen : s.extents_.length with
  | zero =>
    have : s.extent_exists_ 0 = false := by
      unfold extent_exists_
      rw [List.getElem?_eq_none (by omega)]
      rfl
    rw [← hone]
    simp [sizeBefore, this]
  | succ i => rw [hfirst i, hone]

theorem mem_listObjects {c : Cluster} (others : List ExtentId)
    (hkeys : ∀ j, (c.objects.find j).isSome → j < 2 ^ 32) (j : Nat) :
    (∃ o ∈ c.listObjects others, ExtentId.ofName o = .ok ⟨c.id, j⟩) ↔ (c.objects.find j).isSome := by
  constructor
  · rintro ⟨o, ho, hname⟩
    rcases mem_append.1 ho with ho | ho
    · -- another file's extent has another container id
      obtain ⟨eid, heid, rfl⟩ := mem_map.1 ho
      rw [ExtentId.ofName_str] at hname
      simp only [Except.ok.injEq, ExtentId.mk.injEq] at hname
      exact absurd hname.1 (by simpa using (mem_filter.1 heid).2)
    · obtain ⟨p, hp, rfl⟩ := mem_map.1 ho
      have hsome : (c.objects.find p.1).isSome := Assoc.find_isSome_iff.2 (mem_map.2 ⟨p, hp, rfl⟩)
      rw [ExtentId.ofName_str, mod_eq_of_lt (hkeys p.1 hsome)] at hname
      cases hname
      exact hsome
  · intro hj
    obtain ⟨p, hp, rfl⟩ := mem_map.1 (Assoc.find_isSome_iff.1 hj)
    refine ⟨_, mem_append_right _ (mem_map.2 ⟨p, hp, rfl⟩), ?_⟩
    rw [ExtentId.ofName_str, mod_eq_of_lt (hkeys p.1 hj)]

theorem Holds.uncached (h : Holds s f) {cache : ExtentCache} (hcache : cache.entries = []) :
    Holds { s with cache := cache } f :=
  ⟨⟨h.stored.exists_iff, by simp [hcache], h.stored.length⟩, h.ends, h.size, h.content, h.limit⟩

theorem Holds.restart {c : Cluster} (h : Holds s f) (hobjects : s.objects = c.objects)
    (hsmall : s.size_ ≤ Extent.capacity) {cache : ExtentCache} (hcache : cache.entries = []) (others : List ExtentId) :
    ∃ extents, State.restart { cache := cache, objects := c.objects } c.id (c.listObjects others) =
        { size_ := s.size_, extents_ := extents, cache := cache, objects := c.objects } ∧
      Holds { size_ := s.size_, extents_ := extents, cache := cache, objects := c.objects } f := by
  have hbackend : ∀ j, s.backend j = c.objects.find j := fun j => by rw [← hobjects]; rfl
  have hkeys : ∀ j, (c.objects.find j).isSome → j < 2 ^ 31 - 1 := by
    intro j hj
    have := h.stored.lt_length (by rwa [hbackend j])
    have := h.stored.length
    omega
  have hlist := mem_listObjects (c := c) others fun j hj => lt_trans (hkeys j hj) (by omega)
  generalize hs0 : ({ cache := cache, objects := c.objects } : State) = s0
  obtain ⟨extents, hfold⟩ := foldl_listed_frame c.id (c.listObjects others) s0
  have hexists := fun j => foldl_listed_exists c.id j (c.listObjects others) s0
  have hlength := foldl_listed_length c.id (2 ^ 31 - 1) (c.listObjects others) s0
    (by rw [← hs0]; simp) fun o ho j hj => hkeys j ((hlist j).1 ⟨o, ho, hj⟩)
  rw [hfold] at hexists hlength
  subst hs0
  have hstored : Stored { cache := cache, objects := c.objects, extents_ := extents } := by
    constructor
    · intro j
      rw [hexists j, hlist j]
      simp [State.extent_exists_, State.backend]
    · simp [hcache]
    · dsimp only at hlength ⊢
      omega
  have hends : Ends (State.backend { cache := cache, objects := c.objects, extents_ := extents }) s.size_ := by
    rw [show State.backend { cache, objects := c.objects, extents_ := extents } = s.backend from (funext hbackend).symm]
    exact h.ends
  refine ⟨extents, ?_, hstored.setSize _, hends, h.size, ?_, h.limit⟩
  · have hsize := sizeBefore_eq hstored hends hsmall
    unfold State.restart
    rw [show State.erase_extents_ { cache, objects := c.objects } = { cache, objects := c.objects } from rfl]
    dsimp only
    rw [hfold]
    rw [hsize]
  · rw [← h.content]
    exact congrArg _ (funext hbackend).symm

/-! ## Runs -/

theorem Stored.answer_read (h : Stored s) (off n : Nat) :
    (s.call (.read off n)).1 = .bytes (readFrom s.backend (s.to_read off n) off (s.to_read off n)) ∧
      ∃ cache, (s.call (.read off n)).2 = { s with cache := cache } ∧ Stored { s with cache := cache } := by
  obtain ⟨cache, hloop, hst⟩ := readLoop_ok (s.to_read off n) off (s.to_read off n) h
  unfold State.call State.read
  dsimp only
  rw [hloop]
  exact ⟨rfl, cache, rfl, hst⟩

/-- A write does not end before the end of the file, and no extent number leaves the range of an `int`. -/
def Gentle (s : State) : Call → Prop
  | .write off bytes => bytes = [] ∨ (s.size_ ≤ off + bytes.length ∧ off + bytes.length ≤ limit)
  | .resize size => size ≤ limit
  | _ => True

instance (s : State) : (c : Call) → Decidable (Gentle s c)
  | .read _ _ => isTrue trivial
  | .write _ _ => inferInstanceAs (Decidable (_ ∨ _))
  | .resize _ => inferInstanceAs (Decidable (_ ≤ _))
  | .size => isTrue trivial

theorem Holds.gentle (h : Holds s f) {call : Call} (hc : Gentle s call) : ∃ f', Holds (s.call call).2 f' := by
  cases call with
  | read off n =>
    obtain ⟨cache, heq, hst⟩ := (h.stored.answer_read off n).2
    rw [heq]
    exact ⟨f, hst, h.ends, h.size, h.content, h.limit⟩
  | write off bytes => exact ⟨_, (h.write (by rw [← h.size]; exact hc)).2⟩
  | resize size => exact ⟨_, (h.resize hc).2⟩
  | size => exact ⟨f, h⟩

namespace Cluster

/-- The size as the owner has it. -/
def size (c : Cluster) : Nat := (c.state.map size_).getD 0

/-- The file is restarted with one extent at most, and not on a node with a container object of an earlier
time, unless that is still up to date. -/
def Careful (c : Cluster) : Action → Prop
  | .call call => ∀ s ∈ c.state, Gentle s call
  | .move n _ =>
    if (c.nodes n).container = none then c.size ≤ Extent.capacity
    else (c.nodes n).container = (c.nodes c.owner).container
  | .reboot n _ => n = c.owner → c.size ≤ Extent.capacity

instance (c : Cluster) : (a : Action) → Decidable (c.Careful a)
  | .call _ => inferInstanceAs (Decidable (∀ s ∈ c.state, _))
  | .move n _ => inferInstanceAs (Decidable (if (c.nodes n).container = none then _ else _))
  | .reboot _ _ => inferInstanceAs (Decidable (_ → _))

/-- The size and the bytes are the same before and after a move or a restart. -/
def Survives (c : Cluster) : Action → Prop
  | .call _ => True
  | a => (c.step a).answer .size = c.answer .size ∧ ∀ off n, (c.step a).answer (.read off n) = c.answer (.read off n)

/-- The owner's container object holds the file; the other nodes have no extents of it in their caches. -/
structure Inv (c : Cluster) : Prop where
  holds : ∃ s f, c.state = some s ∧ Holds s f
  others : ∀ n, n ≠ c.owner → (c.nodes n).cache.entries = []

variable {c : Cluster}

variable {s : State} {f : Bytes} {n : Nat} {others : List ExtentId}

theorem state_objects (h : c.state = some s) : s.objects = c.objects := by
  obtain ⟨k, -, rfl⟩ := Option.map_eq_some_iff.1 h
  rfl

theorem state_setNode (s : State) (objects : Assoc Nat File) :
    ({ c.setNode c.owner (Node.ofState s) with objects } : Cluster).state = some { s with objects } := by
  simp [state, setNode, Node.ofState]

theorem answers_eq {c' : Cluster} {s' : State} (hs : c.state = some s) (hs' : c'.state = some s') (h : Holds s f)
    (h' : Holds s' f) (hobjects : c'.objects = c.objects) :
    c'.answer .size = c.answer .size ∧ ∀ off n, c'.answer (.read off n) = c.answer (.read off n) := by
  have hsize : s'.size_ = s.size_ := h'.size.trans h.size.symm
  have hbackend : s'.backend = s.backend := by
    unfold backend
    rw [state_objects hs, state_objects hs', hobjects]
  unfold answer
  rw [hs, hs']
  constructor
  · show some (Answer.count s'.size_) = some (Answer.count s.size_)
    rw [hsize]
  · intro off n
    have hr : s'.to_read off n = s.to_read off n := by
      unfold to_read
      rw [hsize]
    rw [Option.map_some, Option.map_some, (h.stored.answer_read off n).1, (h'.stored.answer_read off n).1, hr, hbackend]

theorem restart_state (h : Holds s f) (hobjects : s.objects = c.objects) (hsmall : s.size_ ≤ Extent.capacity)
    (hnone : (c.nodes c.owner).container = none)
    (hcache : (c.nodes c.owner).cache.entries = []) (others : List ExtentId) :
    ∃ s', (c.restart c.owner others).state = some s' ∧ Holds s' f := by
  obtain ⟨extents, heq, hholds⟩ := h.restart hobjects hsmall hcache others
  refine ⟨_, ?_, hholds⟩
  unfold restart Node.restart
  rw [hnone]
  rw [heq]
  exact state_setNode _ c.objects

theorem restart_of_some {k : Container} (h : (c.nodes n).container = some k) (others : List ExtentId) :
    c.restart n others = c := by
  unfold restart Node.restart setNode
  rw [h]
  rw [update_eq_self]

theorem size_eq (h : c.state = some s) : c.size = s.size_ := by
  unfold size
  rw [h]
  rfl

theorem transfer_nodes_of_ne (s : State) (n : Nat) {m : Nat} (h : m ≠ c.owner) : (c.transfer s n).nodes m = c.nodes m :=
  update_of_ne h ..

theorem Inv.others_move (h : Inv c) (hs : Stored s) (n : Nat) (others : List ExtentId) :
    ∀ m, m ≠ n → (((c.transfer s n).restart n others).nodes m).cache.entries = [] := by
  intro m hm
  have hnode : ((c.transfer s n).restart n others).nodes m = (c.transfer s n).nodes m := update_of_ne hm ..
  rw [hnode]
  by_cases hmo : m = c.owner
  · subst hmo
    unfold transfer
    dsimp only
    rw [update_self]
    exact hs.drop_from_cache
  · rw [transfer_nodes_of_ne s n hmo]
    exact h.others m hmo

theorem Inv.transferred (h : Inv c) (hs : c.state = some s) (hholds : Holds s f) (hc : c.Careful (.move n others)) :
    ∃ s', ((c.transfer s n).restart n others).state = some s' ∧ Holds s' f := by
  obtain ⟨k, hk, hks⟩ := Option.map_eq_some_iff.1 hs
  simp only [Careful] at hc
  split at hc
  · next hnone =>
    -- the new owner is another node, as the old one has a container object
    have hne : n ≠ c.owner := by
      rintro rfl
      rw [hk] at hnone
      cases hnone
    have hnode := transfer_nodes_of_ne s n hne
    have hobjects : s.objects = (c.transfer s n).objects := state_objects (c := c) hs
    refine restart_state (c := c.transfer s n) hholds hobjects (by rw [← size_eq hs]; exact hc) ?_ ?_ others
    · exact (congrArg Node.container hnode).trans hnone
    · exact (congrArg (fun node => node.cache.entries) hnode).trans (h.others n hne)
  · by_cases hne : n = c.owner
    · subst hne
      have hnode : (c.transfer s c.owner).nodes c.owner = Node.ofState s.drop_from_cache := update_self ..
      rw [restart_of_some (k := ⟨s.size_, s.extents_⟩) (congrArg Node.container hnode) others]
      refine ⟨{ s with cache := s.drop_from_cache.cache }, ?_, hholds.uncached hholds.stored.drop_from_cache⟩
      unfold state
      rw [show (c.transfer s c.owner).owner = c.owner from rfl, hnode]
      subst hks
      rfl
    · have hnode := transfer_nodes_of_ne s n hne
      rw [restart_of_some (k := k) ((congrArg Node.container hnode).trans (hc.trans hk)) others]
      refine ⟨{ s with cache := (c.nodes n).cache }, ?_, hholds.uncached (h.others n hne)⟩
      unfold state
      rw [show (c.transfer s n).owner = n from rfl, hnode, hc, hk, Option.map_some, ← hks]
      rfl

theorem Inv.move (h : Inv c) (hc : c.Careful (.move n others)) :
    c.Survives (.move n others) ∧ Inv (c.step (.move n others)) := by
  obtain ⟨s, f, hs, hholds⟩ := h.holds
  obtain ⟨s', hs', hholds'⟩ := h.transferred hs hholds hc
  have hstep : c.step (.move n others) = (c.transfer s n).restart n others := by
    simp only [step, hs]
  unfold Survives
  dsimp only
  rw [hstep]
  exact ⟨answers_eq hs hs' hholds hholds' rfl, ⟨s', f, hs', hholds'⟩, h.others_move hholds.stored n others⟩

theorem Inv.reboot (h : Inv c) (hc : c.Careful (.reboot n others)) :
    c.Survives (.reboot n others) ∧ Inv (c.step (.reboot n others)) := by
  obtain ⟨s, f, hs, hholds⟩ := h.holds
  generalize hfresh : c.setNode n { cache := { capacity := (c.nodes n).cache.capacity } } = c'
  have hnode : c'.nodes n = { cache := { capacity := (c.nodes n).cache.capacity } } := by
    rw [← hfresh]
    exact update_self ..
  have hother : ∀ m, m ≠ n → c'.nodes m = c.nodes m := by
    intro m hm
    rw [← hfresh]
    exact update_of_ne hm ..
  have hobjects : c'.objects = c.objects := by rw [← hfresh]; rfl
  have howner : c'.owner = c.owner := by rw [← hfresh]; rfl
  unfold Survives
  simp only [step, hfresh]
  split
  · next heq =>
    subst heq
    rw [← howner] at hnode
    obtain ⟨s', hs', hholds'⟩ := restart_state (c := c') hholds ((state_objects hs).trans hobjects.symm)
      (by rw [← size_eq hs]; exact hc rfl) (by rw [hnode]) (by rw [hnode]) others
    rw [howner] at hs'
    refine ⟨answers_eq hs hs' hholds hholds' hobjects, ⟨s', f, hs', hholds'⟩, ?_⟩
    intro m hm
    have hm' : m ≠ c.owner := by rwa [show (c'.restart c.owner others).owner = c'.owner from rfl, howner] at hm
    have hnode' : (c'.restart c.owner others).nodes m = c'.nodes m := update_of_ne hm' ..
    rw [hnode', hother m hm']
    exact h.others m hm'
  · next hne =>
    have hs' : c'.state = some s := by
      rw [← hs]
      unfold state
      rw [howner, hobjects, hother c.owner (Ne.symm hne)]
    refine ⟨answers_eq hs hs' hholds hholds hobjects, ⟨s, f, hs', hholds⟩, ?_⟩
    intro m hm
    by_cases hmn : m = n
    · subst hmn
      rw [hnode]
    · rw [hother m hmn]
      exact h.others m (by rwa [howner] at hm)

theorem Inv.called (h : Inv c) {call : Call} (hc : c.Careful (.call call)) : Inv (c.step (.call call)) := by
  obtain ⟨s, f, hs, hholds⟩ := h.holds
  obtain ⟨f', hholds'⟩ := hholds.gentle (hc s hs)
  simp only [step, hs]
  refine ⟨⟨_, f', state_setNode _ _, hholds'⟩, ?_⟩
  intro n hn
  have hnode : (c.setNode c.owner (Node.ofState (s.call call).2)).nodes n = c.nodes n := update_of_ne hn ..
  exact (congrArg (fun node => node.cache.entries) hnode).trans (h.others n hn)

theorem Inv.step (h : Inv c) {a : Action} (hc : c.Careful a) : c.Survives a ∧ Inv (c.step a) := by
  cases a with
  | call call => exact ⟨trivial, h.called hc⟩
  | move n others => exact h.move hc
  | reboot n others => exact h.reboot hc

/-- A new file, created by the owner. -/
def created (id : Name) (owner : Nat) (capacity : Nat → Nat) : Cluster :=
  { id := id, owner := owner, nodes := fun n =>
      { container := if n = owner then some ⟨0, []⟩ else none, cache := { capacity := capacity n } } }

theorem Inv.created (id : Name) (owner : Nat) (capacity : Nat → Nat) : Inv (Cluster.created id owner capacity) := by
  refine ⟨⟨{ cache := { capacity := capacity owner } }, {}, ?_, Holds.init _ rfl⟩, fun n _ => rfl⟩
  simp [state, Cluster.created]

end Cluster

/-- In every run in which a file is restarted only while it has one extent at most, and not by a node with an
outdated container object, moves and restarts keep its size and its bytes. -/
theorem small_file_survives (id : Name) (owner : Nat) (capacity : Nat → Nat) (as : List Action)
    (has : Each Cluster.step Cluster.Careful (Cluster.created id owner capacity) as) :
    Each Cluster.step Cluster.Survives (Cluster.created id owner capacity) as :=
  each_imp Cluster.Inv (fun _ _ h hc => h.step hc) (Cluster.Inv.created id owner capacity) has

/-- A small file moves to a node and back, with nothing written in between, and its owner is restarted. -/
theorem small_file_moved :
    Each Cluster.step Cluster.Survives (Cluster.created ['f'] 0 fun _ => 1)
      [.call (.write 0 [1, 2, 3]), .move 1 [⟨['g'], 3⟩], .move 0 [], .call (.write 2 [4, 5]), .reboot 0 [],
        .reboot 1 [], .move 1 [], .call (.resize 2), .reboot 1 []] :=
  small_file_survives _ _ _ _ (by decide +kernel)

/-- A byte is written at the start of the second extent: after a move the file has one byte. -/
theorem second_extent_lost :
    let c := runs Cluster.step (Cluster.created ['f'] 0 fun _ => 1) [.call (.write (2 ^ 20) [7])]
    c.answer .size = some (.count (2 ^ 20 + 1)) ∧ (c.step (.move 1 [])).answer .size = some (.count 1) := by
  decide +kernel

/-- A file moves away, is extended and moves back: its first node still has the old size. -/
example :
    let c := runs Cluster.step (Cluster.created ['f'] 0 fun _ => 1)
      [.call (.write 0 [1]), .move 1 [], .call (.write 1 [2, 3])]
    c.answer .size = some (.count 3) ∧ (c.step (.move 0 [])).answer .size = some (.count 1) := by
  decide +kernel

end VolumeDriver.Filedriver
