/-
A data store whose offsets and numbers did not wrap: the file of the current SCO holds the
clusters its checksum was computed from, one for each offset handed out.
-/
import VolumeDriver.DataStore.DataStoreNG

namespace VolumeDriver.DataStoreNG

open Lib Function

variable {D : Type} {d : DataStoreNG D}

/-- The file of the current SCO is what its checksum was computed from. -/
structure Consistent (d : DataStoreNG D) : Prop where
  sco : d.currentClusterLoc_.sco = ⟨d.number, 0, 0⟩
  number_pos : 0 < d.number
  number_lt : d.number < 2 ^ 32
  offset_lt : d.offset < 2 ^ 16
  closed : d.current_open = false → d.offset = 0
  content : d.current_open = true → d.scos d.number = d.currentCheckSum_
  length : d.current_open = true → d.currentCheckSum_.length = d.offset

theorem Consistent.open_of_offset (h : Consistent d) (h0 : d.offset ≠ 0) : d.current_open = true := by
  by_contra hn
  exact h0 (h.closed (by simpa using hn))

theorem pwrite_length (file buf : List D) : pwrite file file.length buf = file ++ buf := by
  unfold pwrite
  rw [List.take_length, List.drop_eq_nil_of_le (by omega), List.append_nil]

section
variable (h : Consistent d)
include h

theorem Consistent.load (fails : List Bool) : Consistent { d with createSCO_fails := fails } :=
  { h with }

theorem Consistent.created (h0 : d.offset = 0) : Consistent d.created where
  __ := h
  closed := fun _ => h0
  content := fun _ => update_self ..
  length := fun _ => h0.symm

theorem Consistent.notCreated (h0 : d.offset = 0) : Consistent d.notCreated where
  __ := h
  closed := fun _ => h0
  content := fun ho => absurd ho (by simp [DataStoreNG.notCreated])
  length := fun ho => absurd ho (by simp [DataStoreNG.notCreated])

theorem Consistent.attempted (h0 : d.offset = 0) : Consistent d.attempted := by
  unfold DataStoreNG.attempted
  split
  · exact h.notCreated h0
  · exact h.created h0

theorem Consistent.ready : Consistent d.ready := by
  unfold DataStoreNG.ready
  cases ho : d.current_open with
  | true => exact h
  | false => exact h.created (h.closed ho)

theorem Consistent.nextSCO (hn : d.number + 1 < 2 ^ 32) : Consistent d.nextSCO := by
  have hnumber : d.nextSCO.number = d.number + 1 := Nat.mod_eq_of_lt hn
  have hsco : d.nextSCO.currentClusterLoc_.sco = ⟨d.nextSCO.number, 0, 0⟩ := by
    show (⟨(d.number + 1) % 2 ^ 32, d.currentClusterLoc_.sco.cloneID, 0⟩ : SCO) = _
    rw [h.sco]
    rfl
  refine ⟨hsco, by omega, by omega, ?_, fun _ => rfl, ?_, ?_⟩
  · show 0 < 2 ^ 16
    decide
  · exact fun ho => absurd ho (by simp [DataStoreNG.nextSCO])
  · exact fun ho => absurd ho (by simp [DataStoreNG.nextSCO])

end

section
variable (buf : List D) (hfit : d.offset + buf.length < 2 ^ 16)

include hfit in
theorem offset_ready_written : (d.ready.written buf).offset = d.offset + buf.length := by
  show (d.ready.currentClusterLoc_.offset + buf.length) % 2 ^ 16 = _
  rw [d.sameLocation_ready.loc]
  exact Nat.mod_eq_of_lt hfit

theorem number_ready : d.ready.number = d.number := congrArg (·.sco.number) d.sameLocation_ready.loc

theorem number_attempted : d.attempted.number = d.number := congrArg (·.sco.number) d.sameLocation_attempted.loc

theorem offset_attempted : d.attempted.offset = d.offset := congrArg (·.offset) d.sameLocation_attempted.loc

theorem Consistent.scos_written (h : Consistent d) (ho : d.current_open = true) :
    (d.written buf).scos = update d.scos d.number (d.scos d.number ++ buf) := by
  show update d.scos d.number (pwrite (d.scos d.number) d.offset buf) = _
  rw [← h.length ho, ← h.content ho, pwrite_length]

include hfit in
theorem Consistent.written (h : Consistent d) (ho : d.current_open = true) : Consistent (d.written buf) where
  __ := h
  offset_lt := Nat.mod_lt _ (by decide)
  closed := fun hc => absurd (ho.symm.trans hc) (by simp)
  content := fun _ => by
    rw [h.scos_written buf ho]
    show update d.scos d.number _ d.number = d.currentCheckSum_ ++ buf
    rw [update_self, h.content ho]
  length := fun _ => by
    show (d.currentCheckSum_ ++ buf).length = (d.offset + buf.length) % 2 ^ 16
    rw [Nat.mod_eq_of_lt hfit, List.length_append, h.length ho]

end

theorem Consistent.ready_written (h : Consistent d) (buf : List D) (hfit : d.offset + buf.length < 2 ^ 16) :
    Consistent (d.ready.written buf) := by
  refine h.ready.written buf ?_ d.ready_open
  rw [offset, d.sameLocation_ready.loc]
  exact hfit

/-! ## Writing to a given location -/

theorem Consistent.locations_one (h : Consistent d) : d.locations 1 = [d.currentClusterLoc_] := by
  have hmod : (d.offset + 0) % 2 ^ 16 = d.offset := Nat.mod_eq_of_lt h.offset_lt
  show [(⟨⟨d.number, 0, 0⟩, (d.offset + 0) % 2 ^ 16⟩ : ClusterLocation)] = _
  rw [hmod, ← h.sco]
  rfl

section
variable {loc : ClusterLocation} (cluster : D)

theorem verify_ok {p : Prop} [Decidable p] {what : String} (hp : p) : verify p what d = .ok () d := by
  rw [verify, if_pos hp]
  rfl

/-- At the current location, the call is a write of one cluster. -/
theorem Consistent.writeClusterToLocation_current (h : Consistent d) :
    writeClusterToLocation cluster d.currentClusterLoc_ d =
      (writeClusters [cluster] >>= fun locs => verify (locs = [d.currentClusterLoc_]) "dummy[0] == loc") d := by
  have hclone : d.currentClusterLoc_.sco.cloneID = 0 := by rw [h.sco]
  have hversion : d.currentClusterLoc_.sco.version = 0 := by rw [h.sco]
  refine (run_bind (verify_ok hclone)).trans ?_
  refine (run_bind (verify_ok hversion)).trans ?_
  refine run_get_bind.trans ?_
  rw [if_neg (not_not.mpr rfl)]

theorem Consistent.writeClusterToLocation_ok (h : Consistent d)
    (hc : d.CanWrite) :
    writeClusterToLocation cluster d.currentClusterLoc_ d = .ok () (d.ready.written [cluster]) := by
  rw [h.writeClusterToLocation_current, run_bind (writeClusters_ok [cluster] hc)]
  exact verify_ok h.locations_one

theorem Consistent.writeClusterToLocation_fails (h : Consistent d) (ho : d.current_open = false)
    (hc : d.createSCO_fails.headD false = true) :
    writeClusterToLocation cluster d.currentClusterLoc_ d = .error .transientException d.notCreated := by
  rw [h.writeClusterToLocation_current]
  exact run_bind_error (writeClusters_fails [cluster] ho hc)

theorem writeClusterToLocation_unexpected (hne : loc ≠ d.currentClusterLoc_) :
    ∃ e, writeClusterToLocation cluster loc d = .error (.exn e) d := by
  by_cases hclone : loc.sco.cloneID = 0
  · by_cases hversion : loc.sco.version = 0
    · refine ⟨.ioException "got unexpected clusterlocation", ?_⟩
      refine (run_bind (verify_ok hclone)).trans ?_
      refine (run_bind (verify_ok hversion)).trans ?_
      refine run_get_bind.trans ?_
      rw [if_pos hne]
      rfl
    · refine ⟨.assertion "loc.version() == 0", (run_bind (verify_ok hclone)).trans ?_⟩
      refine run_bind_error ?_
      rw [verify, if_neg hversion]
      rfl
  · refine ⟨.assertion "loc.cloneID() == 0", run_bind_error ?_⟩
    rw [verify, if_neg hclone]
    rfl

end

/-! ## Other SCOs keep their clusters -/

theorem scos_ready_of_ne {n : Nat} (hn : n ≠ d.number) : d.ready.scos n = d.scos n := by
  unfold ready
  split
  · rfl
  · exact update_of_ne hn ..

theorem scos_written_of_ne {n : Nat} (buf : List D) (hn : n ≠ d.number) : (d.written buf).scos n = d.scos n :=
  update_of_ne hn ..

theorem scos_ready_written_of_ne {n : Nat} (buf : List D) (hn : n ≠ d.number) :
    (d.ready.written buf).scos n = d.scos n := by
  rw [scos_written_of_ne buf (by rwa [number_ready]), scos_ready_of_ne hn]

theorem scos_attempted_of_ne {n : Nat} (hn : n ≠ d.number) : d.attempted.scos n = d.scos n := by
  unfold attempted
  split
  · rfl
  · exact update_of_ne hn ..

/-! ## Room for clusters -/

/-- The SCO is at most full, and `r` more clusters can be written before the SCO numbers run out. -/
structure Room (r : Nat) (d : DataStoreNG D) : Prop where
  mult_pos : 0 < d.sco_mult_
  mult_lt : d.sco_mult_ < 2 ^ 16
  offset_le : d.offset ≤ d.sco_mult_
  room : d.number + (d.offset + r) / d.sco_mult_ < 2 ^ 32

section
variable {r : Nat}

theorem Room.capacity (h : Room r d) : d.getRemainingSCOCapacity = d.sco_mult_ - d.offset := by
  have hle := h.offset_le
  have hlt := h.mult_lt
  unfold getRemainingSCOCapacity
  rw [show d.sco_mult_ + 2 ^ 32 - d.offset = (d.sco_mult_ - d.offset) + 2 ^ 32 by omega, Nat.add_mod_right,
    Nat.mod_eq_of_lt (by omega)]

theorem Room.write (h : Room r d) {buf : List D} (hfit : buf.length ≤ d.sco_mult_ - d.offset) (hr : buf.length ≤ r) :
    Room (r - buf.length) (d.ready.written buf) := by
  have hlt := h.mult_lt
  have hle := h.offset_le
  have hroom := h.room
  have hnumber : (d.ready.written buf).number = d.number := number_ready
  have hoffset := offset_ready_written buf (show d.offset + buf.length < 2 ^ 16 by omega)
  have hmult : (d.ready.written buf).sco_mult_ = d.sco_mult_ := d.sameLocation_ready.mult
  refine ⟨hmult ▸ h.mult_pos, hmult ▸ hlt, ?_, ?_⟩
  · omega
  · rw [hnumber, hoffset, hmult, show d.offset + buf.length + (r - buf.length) = d.offset + r by omega]
    exact hroom

theorem room_next (hpos : 0 < d.sco_mult_) (hlt : d.sco_mult_ < 2 ^ 16)
    (hroom : d.number + 1 + r / d.sco_mult_ < 2 ^ 32) : Room r d.nextSCO.attempted := by
  have hnumber : d.nextSCO.attempted.number = d.number + 1 :=
    number_attempted.trans (Nat.mod_eq_of_lt (Nat.lt_of_le_of_lt (Nat.le_add_right _ _) hroom))
  have hoffset : d.nextSCO.attempted.offset = 0 := offset_attempted
  have hmult : d.nextSCO.attempted.sco_mult_ = d.sco_mult_ := d.nextSCO.sameLocation_attempted.mult
  refine ⟨hmult ▸ hpos, hmult ▸ hlt, ?_, ?_⟩
  · rw [hoffset]
    exact Nat.zero_le _
  · rw [hnumber, hoffset, hmult, Nat.zero_add]
    exact hroom

theorem Room.next_lt (h : Room r d) (hfull : d.offset = d.sco_mult_) : d.number + 1 < 2 ^ 32 := by
  have := h.room
  rw [hfull, Nat.add_div_left _ h.mult_pos] at this
  exact Nat.lt_of_le_of_lt (Nat.add_le_add_left (Nat.succ_le_succ (Nat.zero_le _)) _) this

theorem Room.next (h : Room r d) (hfull : d.offset = d.sco_mult_) : Room r d.nextSCO.attempted := by
  have hroom := h.room
  rw [hfull, Nat.add_div_left _ h.mult_pos] at hroom
  refine room_next h.mult_pos h.mult_lt ?_
  rw [show d.number + 1 + r / d.sco_mult_ = d.number + (r / d.sco_mult_).succ by omega]
  exact hroom

end

end VolumeDriver.DataStoreNG
