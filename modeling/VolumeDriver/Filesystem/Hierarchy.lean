/-
The entries of the hierarchy form a tree below the root entry. The sequences of `set`, `test_and_set` and
`erase` keep it one. A rename compares the entry that it moves with the destination's parent only, looks at
an entry that it overwrites without asserting it, and reads the two parents one after the other: it keeps
the tree when the destination is not below the moved entry and nothing is below the overwritten one.
-/
import VolumeDriver.Lib.Forest
import VolumeDriver.Filesystem.HierarchicalArakoon

namespace VolumeDriver.HierarchicalArakoon

open Lib Lib.Sequence Relation Function Reads ReflTransGen

variable {T : Type}

/-- What is stored. -/
abbrev Store (T : Type) := Key → Option (Buffer T)

/-! ## Links -/

/-- The children map that is stored under a key. -/
def children (st : Store T) (p : Key) : EntryMap :=
  match st p with
  | some buf => buf.entry.children
  | none => []

/-- The entry `c` is a child of `p`. -/
def Child (st : Store T) (p c : Key) : Prop := ∃ name, (children st p).find name = some c

/-- Every entry is reached from the root entry by child links, and none is below itself. -/
structure Tree (st : Store T) : Prop where
  root : (st .root).isSome
  reached : ∀ k, (st k).isSome → ReflTransGen (Child st) .root k
  acyclic : Acyclic (Child st)

variable {p : Key} {st : Store T}

theorem children_of_some {buf : Buffer T} (h : st p = some buf) : children st p = buf.entry.children := by
  unfold children
  rw [h]

theorem children_of_none (h : st p = none) : children st p = [] := by
  unfold children
  rw [h]

theorem not_child_of_empty {c : Key} (h : children st p = []) : ¬ Child st p c := by
  rintro ⟨name, hname⟩
  rw [h] at hname
  cases hname

@[simp] theorem children_update_some (st : Store T) (k p : Key) (buf : Buffer T) :
    children (update st k (some buf)) p = if p = k then buf.entry.children else children st p := by
  unfold children
  by_cases hp : p = k <;> simp [hp]

@[simp] theorem children_update_none (st : Store T) (k p : Key) :
    children (update st k none) p = if p = k then [] else children st p := by
  unfold children
  by_cases hp : p = k <;> simp [hp]

theorem isSome_update {buf : Buffer T} (hp : st p = some buf) (buf' : Buffer T) (k : Key) :
    (update st p (some buf') k).isSome = (st k).isSome := by
  rw [update_apply]
  split
  · next hk => rw [hk, hp]; rfl
  · rfl

namespace Tree

variable {st st' : Store T}

section
variable (h : Tree st)
include h

theorem not_child_root (p : Key) : ¬ Child st p .root := by
  intro hp
  have hsome : (st p).isSome := by
    by_contra hnone
    exact not_child_of_empty (children_of_none (by simpa using hnone)) hp
  exact h.acyclic.not_self hp (h.reached p hsome)

theorem congr (hchildren : ∀ p, children st' p = children st p)
    (hstored : ∀ k, (st' k).isSome = (st k).isSome) : Tree st' := by
  have hchild : Child st' = Child st := by
    funext p c
    simp [Child, hchildren]
  constructor
  · rw [hstored]
    exact h.root
  · intro k hk
    rw [hchild]
    exact h.reached k (by rw [← hstored]; exact hk)
  · rw [hchild]
    exact h.acyclic

variable {key p : Key}

theorem setValue {buf : Buffer T} (hbuf : st key = some buf) (value : Option T) :
    Tree (update st key (some { buf with value := value })) := by
  refine h.congr (fun p => ?_) (isSome_update hbuf _)
  rw [children_update_some]
  split
  · next hp =>
    rw [hp, children_of_some hbuf]
  · rfl

/-- An entry is added below `p`, under a name and a key that are not in use. -/
theorem addEntry {name : String} (hp : (st p).isSome) (hkey : st key = none) (hname : (children st p).find name = none)
    (hlinks : ∀ x n, (children st' x).find n = if x = p ∧ name = n then some key else (children st x).find n)
    (hstored : ∀ k, (st' k).isSome ↔ k = key ∨ (st k).isSome) : Tree st' := by
  have hkept : ∀ x y, Child st x y → Child st' x y := by
    rintro x y ⟨n, hn⟩
    refine ⟨n, ?_⟩
    rw [hlinks, if_neg, hn]
    rintro ⟨rfl, rfl⟩
    rw [hn] at hname
    cases hname
  have hnew : Child st' p key := ⟨name, by rw [hlinks, if_pos ⟨rfl, rfl⟩]⟩
  constructor
  · exact (hstored _).2 (.inr h.root)
  · intro k hk
    rcases (hstored k).1 hk with rfl | hk
    · exact (mono hkept _ _ (h.reached p hp)).tail hnew
    · exact mono hkept _ _ (h.reached k hk)
  · refine h.acyclic.link (q := p) (m := key) ?_ ?_
    · rintro x y ⟨n, hn⟩
      rw [hlinks] at hn
      split at hn
      · next hx => exact .inr ⟨hx.1, (Option.some.inj hn).symm⟩
      · exact .inl ⟨n, hn⟩
    · -- the key is not stored, so nothing is below it
      intro hreach
      rcases cases_head hreach with rfl | ⟨c, hc, _⟩
      · rw [hkey] at hp
        cases hp
      · exact not_child_of_empty (children_of_none hkey) hc

/-- An entry without children is taken out together with the link to it. -/
theorem eraseEntry {name : String} (hname : (children st p).find name = some key) (hempty : children st key = [])
    (hlinks : ∀ x n, (children st' x).find n = if x = p ∧ name = n then none else (children st x).find n)
    (hstored : ∀ k, (st' k).isSome ↔ k ≠ key ∧ (st k).isSome) : Tree st' := by
  have hkept : ∀ x y, Child st x y → y ≠ key → Child st' x y := by
    rintro x y ⟨n, hn⟩ hy
    refine ⟨n, ?_⟩
    rw [hlinks, if_neg, hn]
    rintro ⟨rfl, rfl⟩
    rw [hname] at hn
    exact hy (Option.some.inj hn).symm
  constructor
  · refine (hstored _).2 ⟨?_, h.root⟩
    rintro rfl
    exact h.not_child_root p ⟨name, hname⟩
  · intro k hk
    obtain ⟨hne, hk⟩ := (hstored k).1 hk
    have hout : ∀ x y, x = key → ¬ Child st x y := fun x y hx => not_child_of_empty (by rw [hx]; exact hempty)
    exact (reach_of_removed hout hkept (h.reached k hk)).resolve_left hne
  · refine h.acyclic.mono ?_
    rintro x y ⟨n, hn⟩
    rw [hlinks] at hn
    split at hn
    · cases hn
    · exact ⟨n, hn⟩

/-- The entry that `to` denotes below `q` is taken out, and the entry `m`, which `q` is not below, is moved
there from `p`. -/
theorem moveEntry {q m : Key} {fromName toName : String} (gone : Key → Prop)
    (hgoneIff : ∀ k, gone k ↔ (children st q).find toName = some k) (hm : (children st p).find fromName = some m)
    (hgone : ∀ x, gone x → children st x = []) (hq : (st q).isSome) (hqg : ¬ gone q)
    (hapart : ¬ ReflTransGen (Child st) m q)
    (hlinks : ∀ x n, ¬ gone x → (children st' x).find n = if x = q ∧ toName = n then some m
      else if x = p ∧ fromName = n then none else (children st x).find n)
    (hstored : ∀ k, (st' k).isSome ↔ ¬ gone k ∧ (st k).isSome) : Tree st' := by
  have hlink : Child st' q m := ⟨toName, by rw [hlinks q toName hqg, if_pos ⟨rfl, rfl⟩]⟩
  have hempty : ∀ x y, gone x → ¬ Child st x y := fun x y hx => not_child_of_empty (hgone x hx)
  have hkept : ∀ x y, Child st x y → y ≠ m → ¬ gone y → Child st' x y := by
    rintro x y ⟨n, hn⟩ hym hy
    have hx : ¬ gone x := fun hx => hempty x y hx ⟨n, hn⟩
    refine ⟨n, ?_⟩
    rw [hlinks x n hx, if_neg, if_neg, hn]
    · rintro ⟨rfl, rfl⟩
      rw [hm] at hn
      exact hym (Option.some.inj hn).symm
    · rintro ⟨rfl, rfl⟩
      exact hy ((hgoneIff y).2 hn)
  constructor
  · refine (hstored _).2 ⟨fun hroot => ?_, h.root⟩
    exact h.not_child_root q ⟨toName, (hgoneIff _).1 hroot⟩
  · intro k hk
    obtain ⟨hng, hk⟩ := (hstored k).1 hk
    exact (reach_of_moved hempty hkept hlink (h.reached q hq) hapart hqg (h.reached k hk)).resolve_left hng
  · refine h.acyclic.link (q := q) (m := m) ?_ hapart
    rintro x y ⟨n, hn⟩
    by_cases hx : gone x
    · have hnone : st' x = none := by
        by_contra hsome
        exact ((hstored x).1 (Option.isSome_iff_ne_none.2 hsome)).1 hx
      rw [children_of_none hnone] at hn
      cases hn
    rw [hlinks x n hx] at hn
    split at hn
    · next hxq => exact .inr ⟨hxq.1, (Option.some.inj hn).symm⟩
    · split at hn
      · cases hn
      · exact .inl ⟨n, hn⟩

end

end Tree

/-! ## What the calls hand in -/

/-- The name of the entry that the call may add, and the UUIDs that it gets. -/
def Op.adds : Op T → Option (String × (Nat → UUID))
  | .set path _ alloc => some (path.filename, alloc)
  | .setAt _ name _ alloc => some (name, alloc)
  | .test_and_set path _ _ alloc => some (path.filename, alloc)
  | .test_and_setAt _ name _ _ alloc => some (name, alloc)
  | _ => none

/-- The names of the entry that the call moves, before and after. -/
def Op.moves : Op T → Option (String × String)
  | .rename fromPath toPath => some (fromPath.filename, toPath.filename)
  | .renameAt _ from_name _ to_name => some (from_name, to_name)
  | _ => none

/-- The deletion of an overwritten entry. -/
def removal : Option Key → Seq T
  | none => []
  | some key => [.delete key]

/-- The sequence that an attempt of the call has prepared, by what it does. -/
inductive Prepared (op : Op T) (tries : Nat) (log : List (Key × Option (Buffer T))) : Kept × Option T × Seq T → Prop
  | nothing (kept : Kept) : Prepared op tries log (kept, none, [])
  | setValue {kept : Kept} {key : Key} {cbuf : Buffer T} {value : T} (asserts : Seq T)
      (hasserts : asserts = [] ∨ ∃ pkey pbuf, asserts = [.assert pkey (some pbuf)]) :
      Prepared op tries log
        (kept, none, asserts ++ [.assert key (some cbuf), .set key { cbuf with value := some value }])
  | addEntry {pkey : Key} {pbuf : Buffer T} {name : String} {alloc : Nat → UUID} {value : T} {entry : Entry}
      (hadds : op.adds = some (name, alloc)) (hname : pbuf.entry.children.find name = none)
      (hentry : entry.children = []) :
      Prepared op tries log (⟨some pkey, none⟩, none, [.assert pkey (some pbuf), .assert pkey (some pbuf),
        .set pkey (pbuf.update_serialized_entry_
          (pbuf.entry.withChildren (pbuf.entry.children.insert name (.uuid (alloc tries))))),
        .set (.uuid (alloc tries)) { entry := entry, value := some value }])
  | eraseEntry {kept : Kept} {pkey key : Key} {pbuf buf : Buffer T} {name : String}
      (hname : pbuf.entry.children.find name = some key) (hempty : buf.entry.children = []) :
      Prepared op tries log (kept, none, [.assert pkey (some pbuf), .assert key (some buf),
        .set pkey (pbuf.update_serialized_entry_ (pbuf.entry.withChildren (pbuf.entry.children.erase name))),
        .delete key])
  | renameEntry {p m : Key} {buf_from buf_to : Buffer T} {fromName toName : String} {ret : Option T}
      (hmoves : op.moves = some (fromName, toName)) (hm : buf_from.entry.children.find fromName = some m)
      (hread : ∃ key, (key, some buf_to) ∈ log ∧ (key = p ∨ buf_to.entry.id = p)) :
      Prepared op tries log (⟨some p, some p⟩, ret, removal (buf_to.entry.children.find toName) ++
        [.assert p (some buf_from), .set p (buf_from.update_serialized_entry_
          (buf_from.entry.withChildren ((buf_from.entry.children.erase fromName).insert toName m)))])
  | moveEntry {p q m : Key} {buf_from buf_to buf_entry : Buffer T} {fromName toName : String} {ret : Option T}
      (hmoves : op.moves = some (fromName, toName)) (hm : buf_from.entry.children.find fromName = some m) (hpq : p ≠ q)
      {entry_up : Entry} (hup : entry_up.children = buf_entry.entry.children) :
      Prepared op tries log (⟨some p, some q⟩, ret, removal (buf_to.entry.children.find toName) ++
        [.assert p (some buf_from), .assert q (some buf_to), .assert m (some buf_entry),
          .set p (buf_from.update_serialized_entry_
            (buf_from.entry.withChildren (buf_from.entry.children.erase fromName))),
          .set q (buf_to.update_serialized_entry_
            (buf_to.entry.withChildren (buf_to.entry.children.insert toName m))),
          .set m (buf_entry.update_serialized_entry_ entry_up)])

section

variable {op : Op T} {tries : Nat} {log : List (Key × Option (Buffer T))}

theorem leaves_walk (path : Path) : ∀ (names : List String) {buf : Buffer T} {log : List (Key × Option (Buffer T))},
    (∃ key, (key, some buf) ∈ log) → (walk path buf names).Leaves (fun log buf => ∃ key, (key, some buf) ∈ log) log
  | [], _, _, h => h
  | name :: names, buf, log, _ => by
    unfold walk
    split
    · trivial
    · refine Reads.Leaves.bind (P := fun log buf => ∃ key, (key, some buf) ∈ log) ?_ (leaves_find fun v => ?_)
      · intro log buf h
        exact leaves_walk path names h
      · exact ⟨_, List.mem_append_right _ (List.mem_singleton_self _)⟩

theorem leaves_find_parent (path : Path) :
    (find_parent_ path : M T _).Leaves (fun log buf => ∃ key, (key, some buf) ∈ log) log := by
  unfold find_parent_
  split
  · trivial
  · refine Reads.Leaves.bind (P := fun log buf => ∃ key, (key, some buf) ∈ log) ?_ (leaves_find fun v => ?_)
    · intro log buf h
      exact leaves_walk _ _ h
    · exact ⟨_, List.mem_append_right _ (List.mem_singleton_self _)⟩

theorem leaves_overwrite (entry_to : Entry) (toName : String) :
    (overwrite entry_to toName : M T _).Leaves (fun _ x => x.2 = removal (entry_to.children.find toName)) log := by
  unfold overwrite
  split
  · next hfind =>
    rw [leaves_pure, hfind]
    rfl
  · next hfind =>
    refine leaves_bind fun log garbage => ?_
    split
    · trivial
    · rw [leaves_pure, hfind]
      rfl

theorem leaves_rename {buf_from buf_to : Buffer T} {fromName toName : String} {kept : Kept}
    (hmoves : op.moves = some (fromName, toName))
    (hread : ∃ key, (key, some buf_to) ∈ log ∧ (kept.parent_to = none ∨ kept.parent_to = some key)) :
    (do_prepare_rename_sequence_ buf_from buf_to fromName toName kept).Leaves (Prepared op tries) log := by
  unfold do_prepare_rename_sequence_
  split
  · trivial
  · next m hm =>
    split
    · trivial
    · refine Reads.Leaves.bind ?_ (leaves_overwrite buf_to.entry toName).and_subset
      rintro log' ⟨ret, seq⟩ ⟨hseq, hsub⟩
      dsimp only at hseq ⊢
      subst hseq
      split
      · next hp =>
        obtain ⟨key, hkey, hto⟩ := hread
        rw [leaves_pure, hp]
        refine .renameEntry hmoves hm ⟨key, hsub hkey, ?_⟩
        rcases hto with hto | hto
        · rw [hto]
          exact .inr rfl
        · rw [hto]
          exact .inl rfl
      · next hp =>
        refine leaves_bind fun log'' buf_entry => ?_
        exact .moveEntry hmoves hm hp rfl

theorem leaves_get {f : Buffer T → M T (Kept × Option T × Seq T)} {key : Key}
    (hf : ∀ log buf, (key, some buf) ∈ log → (f buf).Leaves (Prepared op tries) log) :
    (get key >>= f).Leaves (Prepared op tries) log := by
  refine Reads.Leaves.bind (P := fun log buf => (key, some buf) ∈ log) hf (leaves_find fun _ => ?_)
  exact List.mem_append_right _ (List.mem_singleton_self _)

theorem leaves_with_parent {f : Buffer T → Key → M T (Kept × Option T × Seq T)} (path : Path) (pkey : Option Key)
    (hf : ∀ log pbuf pkey, (f pbuf pkey).Leaves (Prepared op tries) log) :
    (with_parent_ path pkey >>= fun x => f x.1 x.2).Leaves (Prepared op tries) log := by
  refine Reads.Leaves.bind (P := fun _ _ => True) (fun log x _ => hf log x.1 x.2) ?_
  unfold with_parent_
  split
  · refine Reads.Leaves.bind ?_ (leaves_find_parent path)
    intro _ _ _
    trivial
  · refine leaves_bind fun _ _ => ?_
    trivial

theorem leaves_rename_path {fromPath toPath : Path} (hmoves : op.moves = some (fromPath.filename, toPath.filename))
    (kept : Kept) : (prepare_rename_sequence_ fromPath toPath kept).Leaves (Prepared op tries) log := by
  unfold prepare_rename_sequence_
  split
  · next hto =>
    refine Reads.Leaves.bind ?_ (leaves_find_parent fromPath)
    intro log buf_from _
    refine Reads.Leaves.bind ?_ (leaves_find_parent toPath)
    rintro log buf_to ⟨key, hread⟩
    exact leaves_rename hmoves ⟨key, hread, .inl hto⟩
  · trivial
  · trivial
  · next parent_from parent_to _ hto =>
    refine leaves_get fun _ _ _ => leaves_get fun _ _ hread => ?_
    exact leaves_rename hmoves ⟨parent_to, hread, .inr hto⟩

theorem leaves_erase (pbuf : Buffer T) (name : String) (pkey : Key) :
    (attempt pkey (do_prepare_erase_sequence_ pbuf name pkey)).Leaves (Prepared op tries) log := by
  refine Reads.Leaves.bind (P := fun log seq => Prepared op tries log (⟨some pkey, none⟩, none, seq)) ?_ ?_
  · intro _ _ h
    exact h
  unfold do_prepare_erase_sequence_
  split
  · trivial
  · next key hname =>
    refine leaves_bind fun log buf => ?_
    split
    · trivial
    · next hempty => exact .eraseEntry hname (not_not.1 hempty)

variable [DecidableEq T]

theorem leaves_setValue {kept : Kept} (name : String) (key : Key) (test_and_set : Bool) (newval : T) (oldval : Option T)
    {asserts : Seq T} (hasserts : asserts = [] ∨ ∃ pkey pbuf, asserts = [.assert pkey (some pbuf)]) :
    (setValue name key test_and_set newval oldval asserts).Leaves
      (fun log seq => Prepared op tries log (kept, none, seq)) log := by
  refine leaves_bind fun log cbuf => ?_
  split
  · trivial
  · split
    · trivial
    · exact .setValue asserts hasserts

theorem leaves_test_and_set {name : String} {alloc : Nat → UUID} (hadds : op.adds = some (name, alloc))
    (pbuf : Buffer T) (pkey : Key) (test_and_set : Bool) (newval : T) (oldval : Option T) :
    (attempt pkey (do_prepare_test_and_set_sequence_ pbuf name pkey test_and_set newval oldval (alloc tries))).Leaves
      (Prepared op tries) log := by
  refine Reads.Leaves.bind (P := fun log seq => Prepared op tries log (⟨some pkey, none⟩, none, seq)) ?_ ?_
  · intro _ _ h
    exact h
  unfold do_prepare_test_and_set_sequence_
  split
  · next hname =>
    split
    · trivial
    · exact .addEntry hadds hname rfl
  · split
    · trivial
    · exact leaves_setValue name _ test_and_set newval oldval (.inr ⟨pkey, pbuf, rfl⟩)

/-- Every attempt of every call hands in one of these sequences. -/
theorem prepare_leaves (op : Op T) (kept : Kept) (tries : Nat) :
    (op.prepare kept tries).Leaves (Prepared op tries) [] := by
  cases op with
  | set path | test_and_set path =>
    exact leaves_with_parent path _ fun _ pbuf pkey => leaves_test_and_set rfl pbuf pkey _ _ _
  | setAt | test_and_setAt =>
    exact leaves_get fun _ pbuf _ => leaves_test_and_set rfl pbuf _ _ _ _
  | test_and_setId id newval oldval =>
    refine leaves_bind fun log cbuf => ?_
    split
    · trivial
    · split
      · trivial
      · exact .setValue [] (.inl rfl)
  | erase path => exact leaves_with_parent path _ fun _ pbuf pkey => leaves_erase pbuf _ pkey
  | eraseAt parent_id name => exact leaves_get fun _ pbuf _ => leaves_erase pbuf _ _
  | rename fromPath toPath =>
    show Reads.Leaves _ [] (if fromPath = toPath then _ else _)
    split
    · exact .nothing kept
    · split
      · trivial
      · exact leaves_rename_path rfl kept
  | renameAt from_parent_id from_name to_parent_id to_name =>
    show Reads.Leaves _ [] (if from_parent_id = to_parent_id ∧ from_name = to_name then _ else _)
    split
    · exact .nothing kept
    · refine leaves_get fun _ _ _ => leaves_get fun _ _ hread => ?_
      exact leaves_rename rfl ⟨_, hread, .inr rfl⟩

end

/-! ## What a sequence does that is carried out -/

/-- The store without an entry. -/
def without (st : Store T) : Option Key → Store T
  | none => st
  | some key => update st key none

theorem without_apply (st : Store T) (old : Option Key) (k : Key) :
    without st old k = if old = some k then none else st k := by
  cases old with
  | none => rfl
  | some key =>
    show update st key none k = _
    by_cases hk : k = key
    · simp [hk]
    · simp [hk, Ne.symm hk]

variable {old : Option Key}

theorem children_without {x : Key} (hx : old ≠ some x) : children (without st old) x = children st x := by
  unfold children
  rw [without_apply, if_neg hx]

theorem without_some {k : Key} {buf : Buffer T} (h : without st old k = some buf) : old ≠ some k ∧ st k = some buf := by
  rw [without_apply] at h
  split at h
  · cases h
  · next hne => exact ⟨hne, h⟩

/-- What a rename finds when it is carried out, from the name in the directory `p` to the one in `q`. -/
structure MayMove (st : Store T) (log : List (Key × Option (Buffer T))) (p q : Key) (fromName toName : String) :
    Prop where
  /-- Within one directory: what the attempt has read of it is still what is stored. -/
  current : p = q → ∀ key buf, (key, some buf) ∈ log → key = q ∨ buf.entry.id = q → st q = some buf
  /-- The destination is neither the moved entry nor below it. -/
  apart : ∀ m, (children st p).find fromName = some m → ¬ ReflTransGen (Child st) m q
  /-- Nothing is below the entry that is overwritten. -/
  empty : ∀ old, (children st q).find toName = some old → children st old = []

/-- The UUID of an entry that is added is not in use, and a rename may move what it moves. -/
def MayCommit (st : Store T) (op : Op T) (tries : Nat) (log : List (Key × Option (Buffer T))) (kept : Kept) : Prop :=
  (match op.adds, kept.parent_from with
    | some (name, alloc), some p => (children st p).find name = none → st (.uuid (alloc tries)) = none
    | _, _ => True) ∧
  (match op.moves, kept.parent_from, kept.parent_to with
    | some (fromName, toName), some p, some q => MayMove st log p q fromName toName
    | _, _, _ => True)

section

variable {st st' : Store T} {op : Op T} {tries : Nat} {log : List (Key × Option (Buffer T))}

variable {pbuf : Buffer T}

theorem Tree.commit_addEntry (h : Tree st) {pkey key : Key} {buf : Buffer T} {name : String}
    (hp : st pkey = some pbuf) (hname : pbuf.entry.children.find name = none) (hkey : st key = none)
    (hbuf : buf.entry.children = [])
    (hst : update (update st pkey (some (pbuf.update_serialized_entry_
      (pbuf.entry.withChildren (pbuf.entry.children.insert name key))))) key (some buf) = st') : Tree st' := by
  have hpk : pkey ≠ key := by
    rintro rfl
    rw [hp] at hkey
    cases hkey
  subst hst
  refine h.addEntry (p := pkey) (by simp [hp]) hkey (by rw [children_of_some hp]; exact hname) (fun x n => ?_)
    fun k => ?_
  · by_cases hx : x = key
    · subst hx
      simp [Ne.symm hpk, hbuf, children_of_none hkey]
    · by_cases hxp : x = pkey
      · simp [hxp, hpk, children_of_some hp, Buffer.update_serialized_entry_, Entry.withChildren, Assoc.find_insert]
      · simp [hx, hxp]
  · by_cases hk : k = key
    · simp [hk]
    · simp [hk, isSome_update hp]

theorem Tree.commit_eraseEntry (h : Tree st) {pkey key : Key} {buf : Buffer T} {name : String}
    (hp : st pkey = some pbuf) (hkey : st key = some buf) (hname : pbuf.entry.children.find name = some key)
    (hempty : buf.entry.children = [])
    (hst : update (update st pkey (some (pbuf.update_serialized_entry_
      (pbuf.entry.withChildren (pbuf.entry.children.erase name))))) key none = st') : Tree st' := by
  have hpk : pkey ≠ key := by
    rintro rfl
    cases hp.symm.trans hkey
    rw [hempty] at hname
    cases hname
  subst hst
  refine h.eraseEntry (p := pkey) (by rw [children_of_some hp]; exact hname)
    (by rw [children_of_some hkey]; exact hempty) (fun x n => ?_) fun k => ?_
  · by_cases hx : x = key
    · subst hx
      simp [Ne.symm hpk, hempty, children_of_some hkey]
    · by_cases hxp : x = pkey
      · simp [hxp, hpk, children_of_some hp, Buffer.update_serialized_entry_, Entry.withChildren, Assoc.find_erase]
      · simp [hx, hxp]
  · by_cases hk : k = key
    · simp [hk]
    · simp [hk, isSome_update hp]

theorem Tree.commit_renameEntry (h : Tree st) {p m : Key} {fromName toName : String}
    (hpw : without st (pbuf.entry.children.find toName) p = some pbuf) (hm : pbuf.entry.children.find fromName = some m)
    (hempty : ∀ old, pbuf.entry.children.find toName = some old → children st old = [])
    (hst : update (without st (pbuf.entry.children.find toName)) p (some (pbuf.update_serialized_entry_
      (pbuf.entry.withChildren ((pbuf.entry.children.erase fromName).insert toName m)))) = st') : Tree st' := by
  obtain ⟨hpg, hp⟩ := without_some hpw
  subst hst
  have hchild : Child st p m := ⟨fromName, by rw [children_of_some hp]; exact hm⟩
  refine h.moveEntry (p := p) (q := p) (m := m) (fun k => pbuf.entry.children.find toName = some k)
    (fun k => by rw [children_of_some hp]) (by rw [children_of_some hp]; exact hm) hempty (by simp [hp]) hpg
    (h.acyclic.not_self hchild) (fun x n hx => ?_) fun k => ?_
  · rw [children_update_some, children_without hx]
    by_cases hxp : x = p
    · simp [hxp, children_of_some hp, Buffer.update_serialized_entry_, Entry.withChildren, Assoc.find_insert,
        Assoc.find_erase]
    · simp [hxp]
  · rw [isSome_update hpw, without_apply]
    split <;> simp_all

theorem Tree.commit_moveEntry (h : Tree st) {p q m : Key} {qbuf mbuf : Buffer T} {fromName toName : String}
    {entry_up : Entry} (hp : without st (qbuf.entry.children.find toName) p = some pbuf)
    (hq : without st (qbuf.entry.children.find toName) q = some qbuf)
    (hmbuf : without st (qbuf.entry.children.find toName) m = some mbuf)
    (hm : pbuf.entry.children.find fromName = some m) (hpq : p ≠ q) (hup : entry_up.children = mbuf.entry.children)
    (hempty : ∀ old, qbuf.entry.children.find toName = some old → children st old = [])
    (hapart : ¬ ReflTransGen (Child st) m q)
    (hst : update (update (update (without st (qbuf.entry.children.find toName))
      p (some (pbuf.update_serialized_entry_ (pbuf.entry.withChildren (pbuf.entry.children.erase fromName)))))
      q (some (qbuf.update_serialized_entry_ (qbuf.entry.withChildren (qbuf.entry.children.insert toName m)))))
      m (some (mbuf.update_serialized_entry_ entry_up)) = st') : Tree st' := by
  obtain ⟨hpg, hp⟩ := without_some hp
  obtain ⟨hqg, hq⟩ := without_some hq
  obtain ⟨hmg, hmbuf⟩ := without_some hmbuf
  have hmq : m ≠ q := by
    rintro rfl
    exact hapart .refl
  have hmp : m ≠ p := by
    rintro rfl
    exact h.acyclic m (.single ⟨fromName, by rw [children_of_some hp]; exact hm⟩)
  subst hst
  refine h.moveEntry (p := p) (q := q) (m := m) (fun k => qbuf.entry.children.find toName = some k)
    (fun k => by rw [children_of_some hq]) (by rw [children_of_some hp]; exact hm) hempty (by simp [hq]) hqg hapart
    (fun x n hx => ?_) fun k => ?_
  · rw [children_update_some, children_update_some, children_update_some, children_without hx]
    by_cases hxm : x = m
    · -- its own children stay
      subst hxm
      simp [hmq, hmp, children_of_some hmbuf, hup, Buffer.update_serialized_entry_]
    · by_cases hxq : x = q
      · simp [hxq, Ne.symm hmq, Ne.symm hpq, children_of_some hq, Buffer.update_serialized_entry_, Entry.withChildren,
          Assoc.find_insert]
      · by_cases hxp : x = p
        · simp [hxp, hpq, Ne.symm hmp, children_of_some hp, Buffer.update_serialized_entry_, Entry.withChildren,
            Assoc.find_erase]
        · simp [hxm, hxq, hxp]
  · by_cases hkm : k = m
    · subst hkm
      simp [hmg, hmbuf]
    · by_cases hkq : k = q
      · subst hkq
        simp [hkm, hqg, hq]
      · by_cases hkp : k = p
        · subst hkp
          simp [hkm, hkq, hpg, hp]
        · rw [update_of_ne hkm, update_of_ne hkq, update_of_ne hkp, without_apply]
          split <;> simp_all

variable [DecidableEq T]

theorem exec_removal {us : Seq T} (h : exec (removal old ++ us) st = .ok st') : exec us (without st old) = .ok st' := by
  cases old with
  | none => exact h
  | some key => exact (exec_delete.1 h).2

/-- A sequence that is carried out under `MayCommit` keeps the tree. -/
theorem Tree.commit (h : Tree st) {kept : Kept} {ret : Option T} {seq : Seq T}
    (hseq : Prepared op tries log (kept, ret, seq)) (hmay : MayCommit st op tries log kept)
    (hst : exec seq st = .ok st') : Tree st' := by
  cases hseq with
  | nothing =>
    rw [exec_nil] at hst
    exact hst ▸ h
  | @setValue _ key cbuf value asserts hasserts =>
    have hvalue : st key = some cbuf ∧ update st key (some { cbuf with value := some value }) = st' := by
      rcases hasserts with rfl | ⟨pkey, pbuf, rfl⟩
      · simpa using hst
      · simp only [List.cons_append, List.nil_append, exec_assert, exec_set, exec_nil] at hst
        exact hst.2
    exact hvalue.2 ▸ h.setValue hvalue.1 _
  | addEntry hadds hname hentry =>
    simp only [exec_assert, exec_set, exec_nil] at hst
    obtain ⟨hp, -, hst⟩ := hst
    have hfree := hmay.1
    simp only [hadds, children_of_some hp] at hfree
    exact h.commit_addEntry hp hname (hfree hname) hentry hst
  | eraseEntry hname hempty =>
    simp only [exec_assert, exec_set, exec_delete, exec_nil] at hst
    obtain ⟨hp, hkey, -, hst⟩ := hst
    exact h.commit_eraseEntry hp hkey hname hempty hst
  | renameEntry hmoves hm hread =>
    have hst := exec_removal hst
    simp only [exec_assert, exec_set, exec_nil] at hst
    obtain ⟨hp, hst⟩ := hst
    have hmove := hmay.2
    simp only [hmoves] at hmove
    -- the copy of the directory that the overwritten entry was looked up in is the one that is asserted
    obtain ⟨key, hkey, hcopy⟩ := hread
    have hsame := hmove.current rfl key _ hkey hcopy
    have hbuf := hsame.symm.trans (without_some hp).2
    cases hbuf
    refine h.commit_renameEntry hp hm ?_ hst
    intro old hold
    exact hmove.empty old (by rw [children_of_some hsame]; exact hold)
  | moveEntry hmoves hm hpq hup =>
    have hst := exec_removal hst
    simp only [exec_assert, exec_set, exec_nil] at hst
    obtain ⟨hp, hq, hmbuf, hst⟩ := hst
    have hmove := hmay.2
    simp only [hmoves] at hmove
    refine h.commit_moveEntry hp hq hmbuf hm hpq hup ?_ ?_ hst
    · intro old hold
      exact hmove.empty old (by rw [children_of_some (without_some hq).2]; exact hold)
    · exact hmove.apart _ (by rw [children_of_some (without_some hp).2]; exact hm)

end

/-! ## Runs -/

variable [DecidableEq T]

/-- The store and its clients. -/
abbrev State (T : Type) := Lib.Sequence.State Key (Buffer T) Error (Op T) Kept (Option T)

/-- A sequence that the action carries out is one that may be. -/
def Orderly (s : State T) : Action (Op T) → Prop
  | .call _ _ => True
  | .step c =>
    match s.clients c with
    | .busy op tries log (.pure (kept, _, seq)) =>
      (∃ st, exec seq s.store = .ok st) → MayCommit s.store op tries log kept
    | _ => True

/-- From every tree, in every interleaving of calls by any number of clients in which the sequences are
carried out in order, every entry stays reached from the root entry and none gets below itself. -/
theorem tree_in_order (st : Store T) (h : Tree st) (as : List (Action (Op T)))
    (has : Each (step service) Orderly ⟨st, fun _ => .idle⟩ as) :
    Tree (runs (step service) ⟨st, fun _ => .idle⟩ as).store := by
  refine runs_store (S := service) prepare_leaves Tree ?_ h (State.ready_idle st) has
  rintro s a op tries log ⟨kept, ret, seq⟩ st' htree horderly hleaf ⟨⟨c, rfl, hc⟩, hst⟩
  have hmay : MayCommit s.store op tries log kept := by
    simp only [Orderly, hc] at horderly
    exact horderly ⟨st', hst⟩
  exact htree.commit hleaf hmay hst

/-! ## Two runs -/

/-- The root directory with the directory `a`, and in it the directory `b`. -/
def sample : Store Nat
  | .root => some ⟨{ children := [("/", .uuid 1)], id := .root, parent_id := none }, none⟩
  | .uuid u =>
    if u = 1 then some ⟨{ children := [("a", .uuid 2)], id := .uuid 1, parent_id := some .root }, some 10⟩
    else if u = 2 then some ⟨{ children := [("b", .uuid 3)], id := .uuid 2, parent_id := some (.uuid 1) }, some 20⟩
    else if u = 3 then some ⟨{ id := .uuid 3, parent_id := some (.uuid 2) }, some 30⟩
    else none

theorem sample_none {u : UUID} (h1 : u ≠ 1) (h2 : u ≠ 2) (h3 : u ≠ 3) : sample (.uuid u) = none := by
  simp only [sample, if_neg h1, if_neg h2, if_neg h3]

theorem find_singleton {n name : String} {id c : ArakoonEntryId} (h : Assoc.find [(n, id)] name = some c) : c = id := by
  simp only [Assoc.find] at h
  split at h
  · exact (Option.some.inj h).symm
  · cases h

theorem child_sample {x y : Key} (h : Child sample x y) :
    (x = .root ∧ y = .uuid 1) ∨ (x = .uuid 1 ∧ y = .uuid 2) ∨ (x = .uuid 2 ∧ y = .uuid 3) := by
  obtain ⟨name, hname⟩ := h
  rcases x with _ | u
  · exact .inl ⟨rfl, find_singleton hname⟩
  · by_cases h1 : u = 1
    · subst h1
      exact .inr (.inl ⟨rfl, find_singleton hname⟩)
    by_cases h2 : u = 2
    · subst h2
      exact .inr (.inr ⟨rfl, find_singleton hname⟩)
    by_cases h3 : u = 3
    · subst h3
      cases hname
    · rw [children_of_none (sample_none h1 h2 h3)] at hname
      cases hname

theorem tree_sample : Tree sample := by
  have hroot : Child sample .root (.uuid 1) := ⟨"/", by decide⟩
  have ha : Child sample (.uuid 1) (.uuid 2) := ⟨"a", by decide⟩
  have hb : Child sample (.uuid 2) (.uuid 3) := ⟨"b", by decide⟩
  constructor
  · decide
  · rintro (_ | u) hu
    · exact .refl
    · have hcases : u = 1 ∨ u = 2 ∨ u = 3 := by
        by_contra hne
        simp only [not_or] at hne
        rw [sample_none hne.1 hne.2.1 hne.2.2] at hu
        cases hu
      rcases hcases with rfl | rfl | rfl
      · exact .single hroot
      · exact (single hroot).tail ha
      · exact ((single hroot).tail ha).tail hb
  · refine acyclic_of_rank (fun k => match k with | .root => 0 | .uuid u => u.toNat) ?_
    intro x y h
    rcases child_sample h with ⟨rfl, rfl⟩ | ⟨rfl, rfl⟩ | ⟨rfl, rfl⟩ <;> decide

/-- The directory `b` is moved to the root directory while another client adds an entry to `a`. -/
theorem tree_after_move :
    Tree (runs (step service) ⟨sample, fun _ => .idle⟩
      [.call 0 (.renameAt 2 "b" 1 "c"), .call 1 (.setAt 2 "d" 40 fun _ => 4), .step 0, .step 1, .step 0, .step 0,
        .step 0, .step 1, .step 1, .step 1]).store := by
  refine tree_in_order sample tree_sample _
    ⟨trivial, trivial, trivial, trivial, trivial, trivial, ?_, ?_, trivial, ?_, trivial⟩
  · refine fun _ => ⟨trivial, ⟨?_, ?_, ?_⟩⟩
    · intro h
      cases h
    · intro m hm
      cases hm
      refine not_reach_of_closed (fun k => k = .uuid 3) ?_ rfl (by decide)
      rintro x y rfl hxy
      rcases child_sample hxy with ⟨h, _⟩ | ⟨h, _⟩ | ⟨h, _⟩ <;> cases h
    · intro old hold
      cases hold
  · -- the directory has changed since it was read, so the first attempt is refused
    rintro ⟨st, hst⟩
    cases hst
  · refine fun _ => ⟨fun _ => ?_, trivial⟩
    rfl

/-- A directory that is moved below its own grandchild is cut off from the root entry, in a cycle. -/
theorem moved_below_itself :
    let s := runs (step service) ⟨sample, fun _ => .idle⟩
      [.call 0 (.renameAt 1 "a" 3 "x"), .step 0, .step 0, .step 0, .step 0]
    Tree sample ∧ (s.store (.uuid 2)).isSome ∧ ¬ ReflTransGen (Child s.store) .root (.uuid 2) ∧
      TransGen (Child s.store) (.uuid 2) (.uuid 2) := by
  refine ⟨tree_sample, by decide, ?_, ?_⟩
  · refine not_reach_of_closed (fun k => k = .root ∨ k = .uuid 1) ?_ (.inl rfl) (by decide)
    rintro x y (rfl | rfl) ⟨name, hname⟩
    · exact .inr (find_singleton hname)
    · cases hname
  · exact .tail (b := .uuid 3) (.single ⟨"b", by decide⟩) ⟨"x", by decide⟩

end VolumeDriver.HierarchicalArakoon
