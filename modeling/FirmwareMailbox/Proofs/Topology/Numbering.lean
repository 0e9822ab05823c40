/-
  FirmwareMailbox.Proofs.Topology.Numbering — the numbers of the tiles are those of the hardware.

  A claim is granted only on a place without a number, and no number is taken back (`Assigns.keeps`).
  So at the end every report still stands: the tile that has the reported bus has the number of the
  register that reported it (`Assigns.answered`). The four registers of a socket name tiles of that
  socket, four places hold four different numbers, and none is left over.
-/

import FirmwareMailbox.Proofs.Topology.Buses
import Mathlib.Data.List.Perm.Subperm

namespace FirmwareMailbox.Topology

namespace Assigns

variable {tiles asked : List Tile} {words : List UInt32} {ids ids' : List (Option UInt8)}

/-- A number once given stays where it is. -/
theorem keeps (h : Assigns tiles asked words ids ids') {p : Nat} {n : UInt8}
    (hp : ids[p]? = some (some n)) : ids'[p]? = some (some n) := by
  induction h with
  | done ids => exact hp
  | @claim x rest w ws ids ids' slot hc _ ih =>
    obtain ⟨owner, -, -, -, hfree⟩ := claim_ok hc
    have hne : slot ≠ p := by
      rintro rfl
      rw [hfree] at hp
      cases hp
    exact ih (by rw [List.getElem?_set_ne hne]; exact hp)

/-- Whoever was asked has its report granted: the tile with the reported bus is in its socket and
    has its number. -/
theorem answered (h : Assigns tiles asked words ids ids') {i : Nat} {x : Tile} {w : UInt32}
    (hx : asked[i]? = some x) (hw : words[i]? = some w) :
    ∃ owner, tiles.find? (·.covers w.toUInt8) = some owner ∧ owner.socket = x.socket ∧
      ids'[owner.index]? = some (some (place x)) := by
  induction h generalizing i with
  | done ids => simp at hx
  | @claim y rest v vs ids ids' slot hc hr ih =>
    cases i with
    | succ i => exact ih (by simpa using hx) (by simpa using hw)
    | zero =>
      cases hx; cases hw
      obtain ⟨owner, ho, hs, rfl, hfree⟩ := claim_ok hc
      have hlt : owner.index < ids.length := (List.getElem?_eq_some_iff.mp hfree).1
      exact ⟨owner, ho, hs, hr.keeps (List.getElem?_set_self hlt)⟩

/-- Every question gives one more place a number. -/
theorem countP_isSome (h : Assigns tiles asked words ids ids') :
    ids'.countP (·.isSome) = ids.countP (·.isSome) + asked.length := by
  induction h with
  | done ids => rfl
  | @claim y rest v vs ids ids' slot hc hr ih =>
    obtain ⟨owner, -, -, -, hfree⟩ := claim_ok hc
    obtain ⟨hlt, hget⟩ := List.getElem?_eq_some_iff.mp hfree
    rw [ih, List.countP_set hlt, hget, List.length_cons]
    simp only [Option.isSome_none, Option.isSome_some, Bool.false_eq_true, if_false, if_true]
    omega

/-- As many questions as places leave no place without a number. -/
theorem none_not_mem (h : Assigns tiles tiles words (tiles.map fun _ => none) ids) : none ∉ ids := by
  have hc := h.countP_isSome
  have h0 : (tiles.map fun _ => (none : Option UInt8)).countP (·.isSome) = 0 :=
    List.countP_eq_zero.mpr fun id hid => by
      obtain ⟨_, _, rfl⟩ := List.mem_map.mp hid
      simp
  have hl : ids.length = tiles.length := by rw [h.length_ids, List.length_map]
  have hall := List.countP_eq_length.mp (show ids.countP (·.isSome) = ids.length by omega)
  intro hn
  cases hall none hn

end Assigns

/-! ## The tiles of a socket -/

theorem sockets_of_placed {tiles : List Tile} (h : Placed tiles) :
    tiles.map (·.socket) = (List.range tiles.length).map (· / Register.tilesPerSocket) := by
  refine List.ext_getElem? fun i => ?_
  rw [List.getElem?_map, List.getElem?_map]
  by_cases hi : i < tiles.length
  · rw [List.getElem?_range hi, List.getElem?_eq_getElem hi]
    exact congrArg some (h i tiles[i] (List.getElem?_eq_getElem hi)).2
  · rw [List.getElem?_eq_none (by omega), List.getElem?_eq_none (by simpa using hi)]
    rfl

theorem Arranged.length_socket {tiles : List Tile} (h : Arranged tiles) {s : Nat}
    (hs : s < tiles.length / Register.tilesPerSocket) : (tiles.filter (·.socket = s)).length = 4 := by
  have hcount : (tiles.filter (·.socket = s)).length =
      ((List.range tiles.length).map (· / Register.tilesPerSocket)).countP (· = s) := by
    rw [← sockets_of_placed h.placed, List.countP_map, List.countP_eq_length_filter]
    rfl
  rw [hcount]
  rcases h.length with hl | hl <;> rw [hl] at hs ⊢
  · obtain rfl : s = 0 := by simpa [Register.tilesPerSocket] using hs
    rfl
  · have hs' : s < 2 := hs
    obtain rfl | rfl : s = 0 ∨ s = 1 := by omega
    · rfl
    · rfl

/-- Four places that hold four different numbers hold each once. -/
theorem perm_of_mem {ids : List UInt8} (hl : ids.length = 4)
    (h : ∀ k < 4, UInt8.ofNat k ∈ ids) : ids.Perm [0, 1, 2, 3] := by
  have hsub : ([0, 1, 2, 3] : List UInt8) ⊆ ids := by
    intro n hn
    simp only [List.mem_cons, List.not_mem_nil, or_false] at hn
    rcases hn with rfl | rfl | rfl | rfl
    · exact h 0 (by omega)
    · exact h 1 (by omega)
    · exact h 2 (by omega)
    · exact h 3 (by omega)
  exact ((List.subperm_of_subset (by decide) hsub).perm_of_length_le (by simp [hl])).symm

/-- A list that has one tile of a kind has it at every tile of that kind. -/
theorem eq_of_filter_singleton {tiles : List Tile} {p : Tile → Bool} {x y : Tile}
    (h : tiles.filter p = [x]) (hy : y ∈ tiles) (hp : p y = true) : x = y := by
  have : y ∈ tiles.filter p := List.mem_filter.mpr ⟨hy, hp⟩
  rw [h] at this
  exact (List.mem_singleton.mp this).symm

/-- In a socket whose tiles have the numbers 0 to 3, each number has one tile. -/
theorem filter_id {tiles : List Tile} {s : Nat}
    (hids : ((tiles.filter (·.socket = s)).map (·.id)).Perm [0, 1, 2, 3]) {y : Tile} (hy : y ∈ tiles)
    (hsock : y.socket = s) : tiles.filter (fun x => x.socket = s ∧ x.id = y.id) = [y] := by
  have hin : y ∈ tiles.filter (fun x => x.socket = s ∧ x.id = y.id) :=
    List.mem_filter.mpr ⟨hy, by simp [hsock]⟩
  have hmem : y.id ∈ ([0, 1, 2, 3] : List UInt8) :=
    hids.subset (List.mem_map_of_mem (List.mem_filter.mpr ⟨hy, by simpa using hsock⟩))
  have hone : ([0, 1, 2, 3] : List UInt8).count y.id = 1 := by
    rw [List.Nodup.count (by decide), if_pos hmem]
  have hlen : (tiles.filter (fun x => x.socket = s ∧ x.id = y.id)).length = 1 := by
    rw [← hone, ← hids.count_eq, List.count, List.countP_map, ← List.countP_eq_length_filter,
      List.countP_filter]
    exact List.countP_congr fun x _ => by simp [and_comm]
  obtain ⟨x, hx⟩ := List.length_eq_one_iff.mp hlen
  rw [hx] at hin ⊢
  rw [List.mem_singleton.mp hin]

/-! ## Numbers and reports -/

theorem zipWith_report_withIds (tiles : List Tile) (ids : List (Option UInt8)) (words : List UInt32)
    (hl : ids.length = tiles.length) :
    (withIds tiles ids).zipWith report words = tiles.zipWith report words := by
  induction tiles generalizing ids words with
  | nil => rfl
  | cons x rest ih =>
    match ids, words, hl with
    | _ :: _, [], _ => rfl
    | id :: ids, w :: words, hl =>
      show report { x with id := id.getD 0 } w :: (withIds rest ids).zipWith report words = _
      rw [ih ids words (by simpa using hl)]
      rfl

theorem toUInt8_and_mask (w : UInt32) : (w &&& 0xFF).toUInt8 = w.toUInt8 := by
  refine UInt8.toNat_inj.mp ?_
  rw [UInt32.toNat_toUInt8, UInt32.toNat_toUInt8, UInt32.toNat_and]
  have : w.toNat &&& 255 = w.toNat % 256 := Nat.and_two_pow_sub_one_eq_mod w.toNat 8
  show (w.toNat &&& 255) % 256 = w.toNat % 256
  omega

/-- The report of register `k` of a socket is of the tile that ends up with number `k` there. -/
theorem Arranged.reported {tiles : List Tile} (hA : Arranged tiles) {words : List UInt32}
    {ids : List (Option UInt8)} (h : Assigns tiles tiles words (tiles.map fun _ => none) ids) {s k : Nat}
    (hs : s < tiles.length / Register.tilesPerSocket) (hk : k < 4) :
    ∃ w y, words[4 * s + k]? = some w ∧ y ∈ withIds tiles ids ∧ y.socket = s ∧ y.id = UInt8.ofNat k ∧
      y.covers w.toUInt8 = true := by
  simp only [Register.tilesPerSocket] at hs
  have hi : 4 * s + k < tiles.length := by omega
  obtain ⟨x, hx⟩ : ∃ x, tiles[4 * s + k]? = some x := ⟨_, List.getElem?_eq_getElem hi⟩
  obtain ⟨w, hw⟩ : ∃ w, words[4 * s + k]? = some w :=
    ⟨_, List.getElem?_eq_getElem (by rw [h.length_words]; exact hi)⟩
  obtain ⟨hxi, hxs⟩ := hA.placed _ _ hx
  obtain ⟨owner, ho, hos, hid⟩ := h.answered hx hw
  obtain ⟨j, hj⟩ := List.getElem?_of_mem (List.mem_of_find?_eq_some ho)
  obtain ⟨rfl, -⟩ := hA.placed j owner hj
  have hk' : place x = UInt8.ofNat k := by
    simp only [place, hxi, Register.tilesPerSocket]
    congr 1
    omega
  have hmem : (withIds tiles ids)[owner.index]? = some { owner with id := UInt8.ofNat k } :=
    withIds_getElem?.mpr ⟨owner, _, hj, hid, by rw [hk']; rfl⟩
  have hcov : owner.covers w.toUInt8 = true := by simpa using List.find?_some ho
  refine ⟨w, _, hw, List.mem_of_getElem? hmem, ?_, rfl, hcov⟩
  show owner.socket = s
  rw [hos, hxs]
  simp only [Register.tilesPerSocket]
  omega

/-- In a table that discovery ends in, the tiles of a socket have the numbers 0 to 3, and the tile
    with number `k` is the one whose buses hold what the socket's register `k` reported, read at
    the socket's place `k`. No number is made up for a tile that none was given to. -/
theorem discovered_ids_are_reported (devices : List PciDevice) :
    (∀ es t, Job.Yields (ofDevices devices) es (.ok t) →
      ∃ words : List UInt32, words.length = t.tiles.length ∧
        es = (t.tiles.zipWith report words).flatten ∧
        ∀ s < t.socketCount,
          ((t.tiles.filter (·.socket = s)).map (·.id)).Perm [0, 1, 2, 3] ∧
          ∀ k < 4, ∃ d w x, t.tiles[4 * s + k]? = some d ∧ words[4 * s + k]? = some w ∧
            report d w = Aperture.smn.loaded d.handle (Register.busNumber k) w ∧
            t.tiles.filter (fun y => y.socket = s ∧ y.id = UInt8.ofNat k) = [x] ∧
            t.tiles.filter (·.covers (w &&& 0xFF).toUInt8) = [x]) ∧
    ∀ tiles es ids, Job.Yields (numberTiles tiles tiles (tiles.map fun _ => none)) es (.ok ids) →
      none ∉ ids := by
  refine ⟨fun es t h => ?_, fun tiles es ids h => ?_⟩
  · obtain ⟨tiles, words, ids, ht, ha, rfl, hw⟩ := yields_ofDevices h
    have hA := arrange_arranged ht
    have hl : ids.length = tiles.length := by rw [ha.length_ids, List.length_map]
    have hlen := length_withIds hl
    have hA' := withIds_arranged hA hl
    rw [Topology.socketCount, hw, hlen]
    refine ⟨words, ha.length_words, by rw [zipWith_report_withIds tiles ids words hl], fun s hs => ?_⟩
    have hids : (((withIds tiles ids).filter (·.socket = s)).map (·.id)).Perm [0, 1, 2, 3] := by
      refine perm_of_mem ?_ fun k hk => ?_
      · rw [List.length_map]
        exact hA'.length_socket (by rw [hlen]; exact hs)
      · obtain ⟨w, y, -, hy, hys, hyk, -⟩ := hA.reported ha hs hk
        exact hyk ▸ List.mem_map_of_mem (List.mem_filter.mpr ⟨hy, by simpa using hys⟩)
    refine ⟨hids, fun k hk => ?_⟩
    obtain ⟨w, y, hwk, hy, hys, hyk, hyc⟩ := hA.reported ha hs hk
    obtain ⟨d, hd⟩ : ∃ d, (withIds tiles ids)[4 * s + k]? = some d :=
      ⟨_, List.getElem?_eq_getElem (by rw [hlen, ← ha.length_words]; exact (List.getElem?_eq_some_iff.mp hwk).1)⟩
    have hplace : d.index % Register.tilesPerSocket = k := by
      rw [(hA'.placed _ d hd).1]
      simp only [Register.tilesPerSocket]
      omega
    refine ⟨d, w, y, hd, hwk, by rw [report, hplace], hyk ▸ filter_id hids hy hys, ?_⟩
    rw [toUInt8_and_mask]
    obtain ⟨x, hx⟩ := hA'.spans.filter_covers (Nat.zero_le w.toUInt8.toNat)
    rw [hx, eq_of_filter_singleton hx hy hyc]
  · obtain ⟨words, ha, -⟩ := yields_numberTiles h
    exact ha.none_not_mem

/-- Asking the tiles of the crossed machine for their numbers. -/
def askCrossed : Job (List (Option UInt8)) :=
  let tiles := tilesFrom 0 (byBus crossed.found)
  numberTiles tiles tiles (tiles.map fun _ => none)

theorem askCrossed_run :
    Job.Yields askCrossed (World.transcript Simulation.machine askCrossed ⟨crossed, {}⟩)
      (.ok [some 1, some 3, some 0, some 2, some 0, some 1, some 3, some 2]) := by
  have hr : (World.run Simulation.machine askCrossed ⟨crossed, {}⟩).1 =
      .ok [some 1, some 3, some 0, some 2, some 0, some 1, some 3, some 2] := by
    rw [askCrossed, byBus_crossed]
    decide +kernel
  exact hr ▸ World.yields_transcript Simulation.machine askCrossed ⟨crossed, {}⟩

theorem crossed_ids_are_reported :
    (∃ words, World.transcript Simulation.machine (ofDevices crossed.found) ⟨crossed, {}⟩ =
        (crossedTable.tiles.zipWith report words).flatten ∧
      ((crossedTable.tiles.filter (·.socket = 1)).map (·.id)).Perm [0, 1, 2, 3]) ∧
    none ∉ [some 1, some 3, some 0, some 2, some 0, some 1, some 3, some (2 : UInt8)] := by
  obtain ⟨words, -, hes, hids⟩ := (discovered_ids_are_reported crossed.found).1 _ _ crossed_run
  exact ⟨⟨words, hes, (hids 1 (by decide)).1⟩,
    (discovered_ids_are_reported crossed.found).2 _ _ _ askCrossed_run⟩

end FirmwareMailbox.Topology
