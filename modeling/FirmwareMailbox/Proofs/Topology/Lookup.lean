/-
  FirmwareMailbox.Proofs.Topology.Lookup — finding a tile in the table.

  A socket has a mailbox tile if and only if it is there. In an arranged table whose sockets number
  their tiles from 0 to 3, the tile that has a bus is in a socket that is there and has one of these
  numbers.
-/

import FirmwareMailbox.Proofs.Topology.Buses

namespace FirmwareMailbox.Topology

variable {t : Topology} {n : Nat}

theorem mailboxTile_absent (h : t.socketCount ≤ n) :
    t.mailboxTile n = .error (.invalidArgument (.absentSocket n t.socketCount)) := if_pos h

theorem mailboxTile_present (h : n < t.socketCount) : ∃ x ∈ t.tiles, t.mailboxTile n = .ok x := by
  have hlt : n * Register.tilesPerSocket < t.tiles.length := by
    simp only [socketCount, Register.tilesPerSocket] at h ⊢
    omega
  refine ⟨_, List.getElem_mem hlt, ?_⟩
  rw [mailboxTile, if_neg (by omega), List.getElem?_eq_getElem hlt]

/-- It is refused for a socket that is not there, and for no other reason. -/
theorem mailboxTile_eq_error {e : Error} (h : t.mailboxTile n = .error e) :
    t.socketCount ≤ n ∧ e = .invalidArgument (.absentSocket n t.socketCount) := by
  by_cases hn : n < t.socketCount
  · obtain ⟨x, -, hx⟩ := mailboxTile_present hn
    rw [hx] at h
    cases h
  · rw [mailboxTile_absent (Nat.le_of_not_lt hn)] at h
    exact ⟨Nat.le_of_not_lt hn, (Except.error.inj h).symm⟩

theorem mailboxTile_fails {P : Error → Prop} (hP : ∀ cause, P (.invalidArgument cause)) (t : Topology) (n : Nat) :
    FailsWith P (t.mailboxTile n) := fun _ h => (mailboxTile_eq_error h).2 ▸ hP _

theorem mailboxTile_mem {x : Tile} (h : t.mailboxTile n = .ok x) : x ∈ t.tiles := by
  unfold mailboxTile at h
  split at h
  · cases h
  · split at h <;> cases h
    exact List.mem_of_getElem? ‹_›

/-- The tile with the mailbox of a socket is the first of its four. -/
theorem tile_of_mailboxTile {tile : Tile} (h : t.mailboxTile n = .ok tile) : t.tiles[4 * n]? = some tile := by
  unfold mailboxTile at h
  split at h
  · cases h
  · split at h <;> cases h
    rename_i hx
    rwa [Register.tilesPerSocket, Nat.mul_comm] at hx

theorem tile_of_bus (hA : Arranged t.tiles)
    (hnumbers : ∀ n < t.socketCount, ((t.tiles.filter (·.socket = n)).map (·.id)).Perm [0, 1, 2, 3])
    {bus : UInt8} {x : Tile} (h : t.tiles.filter (·.covers bus) = [x]) :
    x.socket < t.socketCount ∧ x.id ∈ ([0, 1, 2, 3] : List UInt8) := by
  have hx : x ∈ t.tiles := (List.mem_filter.mp (h ▸ List.mem_singleton_self x)).1
  obtain ⟨i, hi, rfl⟩ := List.getElem_of_mem hx
  have hs : t.tiles[i].socket < t.socketCount := by
    rw [(hA.placed i _ (List.getElem?_eq_getElem hi)).2, socketCount]
    simp only [Register.tilesPerSocket]
    rcases hA.length with h | h <;> omega
  exact ⟨hs, (hnumbers _ hs).subset (List.mem_map_of_mem (List.mem_filter.mpr ⟨hx, by simp⟩))⟩

/-- A device that is listed on one bus only is at one place of the table. -/
theorem index_of_handle {devices : List PciDevice}
    (hd : ∀ a ∈ devices, ∀ b ∈ devices, a.handle = b.handle → a.address.bus = b.address.bus)
    {tiles : List Tile} (ht : arrange devices = .ok tiles) {x y : Tile} (hx : x ∈ tiles) (hy : y ∈ tiles)
    (he : x.handle = y.handle) : x.index = y.index := by
  obtain ⟨-, hs, -, rfl⟩ := arrange_ok ht
  have hlisted : ∀ {i : Nat} {z : Tile}, (tilesFrom 0 (byBus devices))[i]? = some z →
      ∃ a, (byBus devices)[i]? = some a ∧ a ∈ devices ∧ z.handle = a.handle := by
    intro i z hz
    have hdev := congrArg (·[i]?) (device_tilesFrom 0 (byBus devices))
    simp only [List.getElem?_map, hz] at hdev
    obtain ⟨a, ha, hza⟩ := Option.map_eq_some_iff.mp hdev.symm
    exact ⟨a, ha, (byBus_perm devices).subset (List.mem_of_getElem? ha), (Prod.mk.inj hza).1.symm⟩
  obtain ⟨i, hi⟩ := List.getElem?_of_mem hx
  obtain ⟨j, hj⟩ := List.getElem?_of_mem hy
  obtain ⟨a, hia, hamem, hxa⟩ := hlisted hi
  obtain ⟨b, hjb, hbmem, hyb⟩ := hlisted hj
  have hbus : a.address.bus = b.address.bus := hd a hamem b hbmem (hxa.symm.trans (he.trans hyb))
  obtain ⟨hil, rfl⟩ := List.getElem?_eq_some_iff.mp hia
  obtain ⟨hjl, rfl⟩ := List.getElem?_eq_some_iff.mp hjb
  -- the table is in strict order of the buses, so one bus is one place
  have hij : i = j := by
    rcases Nat.lt_trichotomy i j with h | h | h
    · exact absurd hbus (UInt8.ne_of_lt (List.pairwise_iff_getElem.mp hs i j hil hjl h))
    · exact h
    · exact absurd hbus.symm (UInt8.ne_of_lt (List.pairwise_iff_getElem.mp hs j i hjl hil h))
  rw [(tilesFrom_place hi).1, (tilesFrom_place hj).1, hij]

end FirmwareMailbox.Topology
