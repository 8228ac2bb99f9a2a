/-
Which mount point the next SCO is written to (`SCOCache::getWriteMountPoint_`). The first scan stops
at a mount point that does not choke, whether or not there is room on it.
-/
import VolumeDriver.SCOCache.Cache
import Mathlib.Data.List.Rotate

namespace VolumeDriver.Cache

open Lib List SCOCache

variable {c : SCOCache} {cur mp : SCOCacheMountPointPtr} {size : Nat}

namespace SCOCache

/-- There is room. -/
def Room (c : SCOCache) (size : Nat) (mp : SCOCacheMountPointPtr) : Prop :=
  (c.mountPoint mp).used_ + size ≤ (c.mountPoint mp).capacity_

/-- The mount points in the order of the scans; the current one comes last. -/
def ring (c : SCOCache) (cur : SCOCacheMountPointPtr) : List SCOCacheMountPointPtr := c.others cur ++ [cur]

/-- A call gives a mount point with room, one that does not choke if there is such a one with room, or there is no
room anywhere. -/
def Selects (c : SCOCache) (size : Nat) : Prop :=
  match getWriteMountPoint_ size c with
  | .ok mp _ => mp ∈ c.mountPoints_ ∧ c.Room size mp ∧
      ((c.mountPoint mp).choking_ = true → ∀ x ∈ c.mountPoints_, c.Room size x → (c.mountPoint x).choking_ = true)
  | .error e _ => e = .TransientException "cache full" ∧ ∀ x ∈ c.mountPoints_, ¬c.Room size x

/-- The first mount point that does not choke has room, or none has. -/
def Unblocked (c : SCOCache) (size : Nat) (cur : SCOCacheMountPointPtr) : Prop :=
  ∀ mp, (c.ring cur).find? (fun x => !(c.mountPoint x).choking_) = some mp →
    c.Room size mp ∨ ∀ x ∈ c.mountPoints_, ¬c.Room size x

/-! ## The scans -/

/-- A scan from the iterator `it`, here what is left of the list: behind its end it goes on at the beginning, and it
stops at the current mount point or at one that is not skipped. -/
def scan (c : SCOCache) (cur : SCOCacheMountPointPtr) (skip : SCOCacheMountPointPtr → Bool) :
    Nat → List SCOCacheMountPointPtr → Option SCOCacheMountPointPtr
  | 0, _ => none
  | turns + 1, [] => c.scan cur skip turns c.mountPoints_
  | turns + 1, mp :: it => if mp = cur then some cur else if skip mp then c.scan cur skip turns it else some mp

theorem others_eq {l r : List SCOCacheMountPointPtr} (h : c.mountPoints_ = l ++ cur :: r) (hl : cur ∉ l) :
    (c.mountPoints_.dropWhile (· ≠ cur)).tail = r ∧ c.others cur = r ++ l := by
  have hall : ∀ x ∈ l, decide (x ≠ cur) = true := fun x hx => decide_eq_true fun he => hl (he ▸ hx)
  unfold others
  rw [h, dropWhile_append_of_pos hall, takeWhile_append_of_pos hall]
  simp

variable {skip : SCOCacheMountPointPtr → Bool}

theorem scan_front : ∀ (l : List SCOCacheMountPointPtr) {r} {turns : Nat}, cur ∉ l → l.length < turns →
    c.scan cur skip turns (l ++ cur :: r) = some ((l.find? fun x => !skip x).getD cur)
  | [], _, turns + 1, _, _ => by simp [scan]
  | x :: l, _, turns + 1, hl, hlt => by
    rw [mem_cons, not_or] at hl
    rw [cons_append, scan, if_neg (Ne.symm hl.1), List.find?_cons]
    cases hx : skip x
    · simp
    · simpa using scan_front l hl.2 (by simpa using hlt)

/-- A scan ends, with the first of the others that is not skipped. -/
theorem scan_eq {l : List SCOCacheMountPointPtr} : ∀ (r : List SCOCacheMountPointPtr) {turns : Nat},
    (∃ r', c.mountPoints_ = l ++ cur :: r') → cur ∉ l → cur ∉ r → r.length + 1 + l.length < turns →
    c.scan cur skip turns r = some (((r ++ l).find? fun x => !skip x).getD cur)
  | [], turns + 1, ⟨r', h⟩, hl, _, hlt => by
    rw [scan, h, scan_front l hl (by simp at hlt; omega), nil_append]
  | x :: r, turns + 1, h, hl, hr, hlt => by
    rw [mem_cons, not_or] at hr
    rw [scan, if_neg (Ne.symm hr.1), cons_append, List.find?_cons]
    cases hx : skip x
    · simp
    · simpa using scan_eq r h hl hr.2 (by simp at hlt; omega)

/-! ## One call -/

theorem candidate_unchoked (h : (c.ring cur).find? (fun x => !(c.mountPoint x).choking_) = some mp) :
    c.candidate size cur = mp := by
  have hmp := List.find?_some h
  rw [ring, List.find?_append] at h
  unfold candidate
  cases ho : (c.others cur).find? fun x => !(c.mountPoint x).choking_ with
  | some x =>
    rw [ho] at h
    obtain rfl : x = mp := by simpa using h
    refine if_neg fun ⟨hx, hc⟩ => ?_
    rw [← show x = cur from hx] at hc
    simp [hc] at hmp
  | none =>
    rw [ho] at h
    obtain ⟨hcur, rfl⟩ : _ ∧ cur = mp := by simpa using h
    exact if_neg (by simp [hcur])

theorem candidate_choked (h : (c.ring cur).find? (fun x => !(c.mountPoint x).choking_) = none) :
    c.candidate size cur = ((c.others cur).find? (c.hasRoom size)).getD cur := by
  rw [ring, List.find?_append, Option.or_eq_none_iff] at h
  unfold candidate
  rw [h.1]
  exact if_pos ⟨rfl, by simpa using h.2⟩

theorem hasRoom_iff (h : (c.mountPoint mp).used_ + size < 2 ^ 64) : c.hasRoom size mp = true ↔ c.Room size mp := by
  rw [hasRoom, Nat.mod_eq_of_lt h, decide_eq_true_eq, Room]

theorem getWriteMountPoint_eq (hcur : c.currentMountPoint_ = some cur) : getWriteMountPoint_ size c =
    if c.hasRoom size (c.candidate size cur) then
      .ok (c.candidate size cur) { c with currentMountPoint_ := some (c.candidate size cur) }
    else .error (.TransientException "cache full") c := by
  unfold getWriteMountPoint_
  rw [run_get_bind, hcur]
  dsimp only
  split <;> rfl

section

variable (hmem : cur ∈ c.mountPoints_) (hnodup : c.mountPoints_.Nodup)

include hmem hnodup

theorem split_at : ∃ l r, c.mountPoints_ = l ++ cur :: r ∧ cur ∉ l ∧ cur ∉ r ∧ c.ring cur = r ++ l ++ [cur] := by
  obtain ⟨l, r, h⟩ := append_of_mem hmem
  rw [h, nodup_append'] at hnodup
  have hl : cur ∉ l := fun hx => hnodup.2.2 hx (mem_cons_self ..)
  exact ⟨l, r, h, hl, (nodup_cons.1 hnodup.2.1).1, by rw [ring, (others_eq h hl).2]⟩

theorem ring_isRotated : c.ring cur ~r c.mountPoints_ := by
  obtain ⟨l, r, h, -, -, hring⟩ := split_at hmem hnodup
  rw [h, hring]
  simpa using @isRotated_append _ r (l ++ [cur])

theorem mem_ring {x : SCOCacheMountPointPtr} : x ∈ c.ring cur ↔ x ∈ c.mountPoints_ :=
  (ring_isRotated hmem hnodup).mem_iff

theorem candidate_mem : c.candidate size cur ∈ c.mountPoints_ := by
  cases h : (c.ring cur).find? fun x => !(c.mountPoint x).choking_ with
  | some mp => exact candidate_unchoked h ▸ (mem_ring hmem hnodup).1 (mem_of_find?_eq_some h)
  | none =>
    rw [candidate_choked h]
    cases ho : (c.others cur).find? (c.hasRoom size) with
    | none => exact hmem
    | some x => exact (mem_ring hmem hnodup).1 (mem_append_left _ (mem_of_find?_eq_some ho))

/-- A call does what it should unless a mount point without room that does not choke comes first. -/
theorem selects_iff (hcur : c.currentMountPoint_ = some cur)
    (hsize : ∀ x ∈ c.mountPoints_, (c.mountPoint x).used_ + size < 2 ^ 64) : c.Selects size ↔ c.Unblocked size cur := by
  have hcand : c.candidate size cur ∈ c.mountPoints_ := candidate_mem hmem hnodup
  have hroom := hasRoom_iff (hsize _ hcand)
  unfold Selects Unblocked
  rw [getWriteMountPoint_eq hcur]
  cases h : (c.ring cur).find? fun x => !(c.mountPoint x).choking_ with
  | some mp =>
    have hchoke : (c.mountPoint mp).choking_ = false := by simpa using List.find?_some h
    rw [candidate_unchoked h] at hcand hroom ⊢
    by_cases hr : c.hasRoom size mp = true
    · simp [if_pos hr, hcand, hroom.1 hr, hchoke]
    · simp [if_neg hr, mt hroom.2 hr]
  | none =>
    -- all choke: the second scan looks for room only
    have hall : ∀ x ∈ c.mountPoints_, (c.mountPoint x).choking_ = true := fun x hx => by
      simpa using List.find?_eq_none.1 h x ((mem_ring hmem hnodup).2 hx)
    simp only [reduceCtorEq, false_implies, implies_true, iff_true]
    by_cases hr : c.hasRoom size (c.candidate size cur) = true
    · rw [if_pos hr]
      exact ⟨hcand, hroom.1 hr, fun _ x hx _ => hall x hx⟩
    · rw [if_neg hr]
      refine ⟨rfl, fun x hx hrx => ?_⟩
      rw [candidate_choked h] at hr
      cases ho : (c.others cur).find? (c.hasRoom size) with
      | some y => exact hr (by rw [ho]; exact List.find?_some ho)
      | none =>
        rw [ho] at hr
        rcases mem_append.1 ((mem_ring hmem hnodup).2 hx) with hx' | hx'
        · exact List.find?_eq_none.1 ho x hx' ((hasRoom_iff (hsize x hx)).2 hrx)
        · exact hr (mem_singleton.1 hx' ▸ (hasRoom_iff (hsize x hx)).2 hrx)

/-! ## Round robin -/

theorem ring_rotate {a b : List SCOCacheMountPointPtr} (h : c.ring cur = a ++ mp :: b) :
    c.ring mp = b ++ a ++ [mp] := by
  have hmp : mp ∈ c.mountPoints_ := (mem_ring hmem hnodup).1 (by simp [h])
  have hall : mp :: (b ++ a) ~r c.mountPoints_ :=
    (@isRotated_append _ (mp :: b) a).trans (h ▸ ring_isRotated hmem hnodup)
  have hd : (mp :: (b ++ a)).Nodup := hall.nodup_iff.2 hnodup
  have hrot : mp :: (b ++ a) ~r mp :: c.others mp :=
    hall.trans ((ring_isRotated hmp hnodup).symm.trans (isRotated_concat ..))
  -- the two rotations start with `mp`, which is in them once
  obtain ⟨n, hle, hn⟩ := isRotated_iff_mod.1 hrot
  rw [rotate_eq_drop_append_take hle] at hn
  have happ := take_append_drop n (mp :: (b ++ a))
  rw [← happ] at hd
  generalize List.take n _ = u, List.drop n _ = v at happ hn hd
  rw [ring]
  rcases u with _ | ⟨x, u⟩
  · rw [(List.cons.inj (hn.symm.trans ((append_nil v).trans happ))).2]
  rcases v with _ | ⟨y, v⟩
  · rw [(List.cons.inj (hn.symm.trans (append_nil _ ▸ happ))).2]
  · rw [(List.cons.inj happ).1, (List.cons.inj hn).1] at hd
    simp at hd

end

/-- The mount points that calls return, one call after the other. -/
def selections (c : SCOCache) : List Nat → List SCOCacheMountPointPtr
  | [] => []
  | size :: sizes =>
    match getWriteMountPoint_ size c with
    | .ok mp c => mp :: c.selections sizes
    | .error _ c => c.selections sizes

/-- With room on all mount points that do not choke, one that is the `n`th of them is reached by the `n`th call at the
latest. -/
theorem mem_selections : ∀ (sizes : List Nat) {c : SCOCache} {cur : SCOCacheMountPointPtr}
    {a b : List SCOCacheMountPointPtr}, c.currentMountPoint_ = some cur → cur ∈ c.mountPoints_ →
    c.mountPoints_.Nodup → c.ring cur = a ++ mp :: b → (c.mountPoint mp).choking_ = false →
    (∀ size ∈ sizes, ∀ x ∈ c.mountPoints_, (c.mountPoint x).choking_ = false → c.Room size x) →
    a.length < sizes.length → mp ∈ c.selections sizes
  | size :: sizes, c, cur, a, b, hcur, hmem, hnodup, hring, hmp, hroom, hlen => by
    cases hx : (c.ring cur).find? fun x => !(c.mountPoint x).choking_ with
    | none =>
      have := List.find?_eq_none.1 hx mp (by simp [hring])
      simp [hmp] at this
    | some x =>
      obtain ⟨hchoke, a', b', hsplit, hfront⟩ := List.find?_eq_some_iff_append.1 hx
      have hxmem : x ∈ c.mountPoints_ := (mem_ring hmem hnodup).1 (mem_of_find?_eq_some hx)
      have hxroom : c.Room size x := hroom size (mem_cons_self ..) x hxmem (by simpa using hchoke)
      have hhas : c.hasRoom size x = true := by
        refine (hasRoom_iff ?_).2 hxroom
        have := (c.mountPoint x).fits
        unfold Room at hxroom
        omega
      rw [selections, getWriteMountPoint_eq hcur, candidate_unchoked hx, if_pos hhas]
      by_cases hne : mp = x
      · exact hne ▸ mem_cons_self ..
      refine mem_cons_of_mem _ ?_
      -- the one that was taken comes before `mp` in the ring
      obtain ⟨d, rfl, rfl⟩ : ∃ d, a = a' ++ x :: d ∧ b' = d ++ mp :: b := by
        rcases append_eq_append_iff.1 (hring.symm.trans hsplit) with ⟨d, hd, hb⟩ | ⟨d, hd, hb⟩
        · rcases d with _ | ⟨y, d⟩
          · exact absurd (List.cons.inj hb).1 hne
          · have := hfront mp (by rw [hd, (List.cons.inj hb).1]; simp)
            simp [hmp] at this
        · rcases d with _ | ⟨y, d⟩
          · exact absurd (List.cons.inj hb).1.symm hne
          · obtain ⟨rfl, rfl⟩ := List.cons.inj hb
            exact ⟨d, hd, rfl⟩
      have hrot : c.ring x = d ++ mp :: (b ++ a' ++ [x]) := (ring_rotate hmem hnodup hsplit).trans (by simp)
      refine mem_selections sizes rfl hxmem hnodup hrot hmp (fun s hs => hroom s (mem_cons_of_mem _ hs)) ?_
      simp at hlen
      omega

end SCOCache

/-- From any position in a list of mount points: both scans end, at the first of the others they do not skip or back at
the current one; a call does what it should exactly if the first mount point that does not choke has room or none has;
and if those that do not choke have room, all of them are taken in turn. -/
theorem write_mount_points (c : SCOCache) (cur : SCOCacheMountPointPtr) (hcur : c.currentMountPoint_ = some cur)
    (hmem : cur ∈ c.mountPoints_) (hnodup : c.mountPoints_.Nodup) :
    (∀ skip, c.scan cur skip (c.mountPoints_.length + 1) (c.mountPoints_.dropWhile (· ≠ cur)).tail =
      some (((c.others cur).find? fun x => !skip x).getD cur)) ∧
    (∀ size, (∀ x ∈ c.mountPoints_, (c.mountPoint x).used_ + size < 2 ^ 64) →
      (c.Selects size ↔ c.Unblocked size cur)) ∧
    ∀ sizes : List Nat, c.mountPoints_.length ≤ sizes.length →
      (∀ size ∈ sizes, ∀ x ∈ c.mountPoints_, (c.mountPoint x).choking_ = false → c.Room size x) →
      ∀ mp ∈ c.mountPoints_, (c.mountPoint mp).choking_ = false → mp ∈ c.selections sizes := by
  obtain ⟨l, r, h, hl, hr, hring⟩ := split_at hmem hnodup
  refine ⟨fun skip => ?_, fun size hsize => selects_iff hmem hnodup hcur hsize,
    fun sizes hlen hroom mp hmp hchoke => ?_⟩
  · obtain ⟨hbehind, hothers⟩ := others_eq h hl
    rw [hbehind, hothers]
    exact scan_eq r ⟨r, h⟩ hl hr (by rw [h]; simp; omega)
  · obtain ⟨a, b, hab⟩ := append_of_mem ((mem_ring hmem hnodup).2 hmp)
    refine mem_selections sizes hcur hmem hnodup hab hchoke hroom ?_
    have h1 := congrArg List.length (hring.symm.trans hab)
    rw [h] at hlen
    simp at h1 hlen
    omega

/-- The first mount point is the current one and empty; the second does not choke and is full. -/
def oneFull : SCOCache where
  mountPoint mp :=
    { path_ := if mp = 0 then "a" else "b", capacity_ := 8, fits := by decide, used_ := if mp = 0 then 0 else 8 }
  mountPoints_ := [0, 1]
  currentMountPoint_ := some 0
  sco _ := { nspace_ := "", scoName_ := ⟨0, 0, 0⟩, mntPoint_ := 0, size_ := 0 }

/-- A full mount point that does not choke yet blocks all writes, though there is room elsewhere. -/
theorem full_mount_point_blocks : oneFull.Room 4 0 ∧
    getWriteMountPoint_ 4 oneFull = .error (.TransientException "cache full") oneFull ∧ ¬oneFull.Selects 4 := by
  have hroom : oneFull.Room 4 0 := by simp [SCOCache.Room, oneFull]
  refine ⟨hroom, rfl, fun h => ?_⟩
  exact (show _ ∧ ∀ x ∈ oneFull.mountPoints_, ¬oneFull.Room 4 x from h).2 0 (by simp [oneFull]) hroom

/-- The same with the full mount point choking. -/
def choked : SCOCache := { oneFull with mountPoint := fun mp => { oneFull.mountPoint mp with choking_ := mp = 1 } }

/-- Once it chokes, the full mount point is passed over. -/
theorem write_mount_points_choked : choked.Selects 4 ∧ 0 ∈ choked.selections [4, 4] := by
  obtain ⟨-, h1, h2⟩ := write_mount_points choked 0 rfl (by decide) (by decide)
  have hroom : choked.Room 4 0 := by simp [SCOCache.Room, choked, oneFull]
  refine ⟨(h1 4 ?_).2 ?_, h2 [4, 4] (by decide) ?_ 0 (by decide) rfl⟩
  · intro x _
    simp only [choked, oneFull]
    split <;> decide
  · rintro mp ⟨⟩
    exact .inl hroom
  · intro size hs x hx hc
    obtain rfl : size = 4 := by simpa using hs
    rcases (by simpa [choked, oneFull] using hx : x = 0 ∨ x = 1) with rfl | rfl
    · exact hroom
    · cases hc

end VolumeDriver.Cache
