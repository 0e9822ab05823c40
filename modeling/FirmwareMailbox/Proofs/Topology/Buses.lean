/-
  FirmwareMailbox.Proofs.Topology.Buses — the tiles of a table share out the buses.

  `Spans lo tiles`: the tiles have the buses from `lo` to the highest, each tile those up to the next
  one's lowest. Arranging devices ends in such a list from bus 0 on, because the devices are sorted,
  no two share a bus and the first is on bus 0; the numbers given afterwards change no range. What
  the range of one tile leaves out, exactly one other has.
-/

import Mathlib.Control.Monad.Basic
import FirmwareMailbox.Machine.Simulation
import FirmwareMailbox.Proofs.Topology.Report

namespace FirmwareMailbox.Topology

/-- The tiles have the buses from `lo` up, one tile after the other, without gap or overlap. -/
inductive Spans : Nat → List Tile → Prop
  | last {lo : Nat} {x : Tile} : x.firstBus.toNat = lo → x.lastBus = highestBus → Spans lo [x]
  | more {lo : Nat} {x : Tile} {rest : List Tile} : x.firstBus.toNat = lo → lo ≤ x.lastBus.toNat →
      Spans (x.lastBus.toNat + 1) rest → Spans lo (x :: rest)

/-- Every tile has its own place in the table, and the socket of that place. -/
def Placed (tiles : List Tile) : Prop :=
  ∀ i x, tiles[i]? = some x → x.index = i ∧ x.socket = i / Register.tilesPerSocket

/-! ## What the span of a list says -/

namespace Spans

variable {lo : Nat} {tiles : List Tile}

theorem head (h : Spans lo tiles) : tiles.head?.map (·.firstBus.toNat) = some lo := by
  cases h with
  | last hx _ | more hx _ _ => exact congrArg some hx

theorem last_highest (h : Spans lo tiles) : tiles.getLast?.map (·.lastBus) = some highestBus := by
  induction h with
  | last _ hx => exact congrArg some hx
  | @more _ _ rest _ _ hr ih =>
    cases rest with
    | nil => cases hr
    | cons y rest => rw [List.getLast?_cons_cons]; exact ih

theorem le_firstBus (h : Spans lo tiles) : ∀ x ∈ tiles, lo ≤ x.firstBus.toNat := by
  induction h with
  | last hx _ => intro y hy; obtain rfl := List.mem_singleton.mp hy; exact Nat.le_of_eq hx.symm
  | more hx hl _ ih =>
    intro y hy
    rcases List.mem_cons.mp hy with rfl | hy
    · exact Nat.le_of_eq hx.symm
    · have := ih y hy
      omega

theorem ascending (h : Spans lo tiles) : tiles.Pairwise fun x y => x.firstBus < y.firstBus := by
  induction h with
  | last _ _ => exact List.pairwise_singleton _ _
  | more hx hl hr ih =>
    refine List.pairwise_cons.mpr ⟨fun y hy => ?_, ih⟩
    have := hr.le_firstBus y hy
    exact UInt8.lt_iff_toNat_lt.mpr (by omega)

theorem adjoining (h : Spans lo tiles) : ∀ i x y, tiles[i]? = some x → tiles[i + 1]? = some y →
    x.lastBus.toNat + 1 = y.firstBus.toNat := by
  induction h with
  | last _ _ => intro i y z _ hz; simp at hz
  | more _ _ hr ih =>
    intro i y z hy hz
    rw [List.getElem?_cons_succ] at hz
    cases i with
    | zero =>
      cases hy
      have := hr.head
      rw [List.head?_eq_getElem?, hz] at this
      exact (Option.some.inj this).symm
    | succ i => exact ih i y z (by simpa using hy) hz

theorem filter_covers_below (h : Spans lo tiles) {b : UInt8} (hb : b.toNat < lo) :
    tiles.filter (·.covers b) = [] := by
  refine List.filter_eq_nil_iff.mpr fun x hx hc => ?_
  have := h.le_firstBus x hx
  simp only [Tile.covers, Bool.and_eq_true, decide_eq_true_eq, UInt8.le_iff_toNat_le] at hc
  omega

/-- Exactly one tile of a span has a bus that is not below it. -/
theorem filter_covers (h : Spans lo tiles) {b : UInt8} (hb : lo ≤ b.toNat) :
    ∃ x, tiles.filter (·.covers b) = [x] := by
  induction h with
  | @last _ x hx hh =>
    have hlo : x.firstBus ≤ b := UInt8.le_iff_toNat_le.mpr (by omega)
    have hhi : b ≤ highestBus := UInt8.le_iff_toNat_le.mpr (Nat.le_of_lt_succ b.toNat_lt)
    exact ⟨x, by simp [Tile.covers, hh, hlo, hhi]⟩
  | @more _ x rest hx hl hr ih =>
    have hlo : x.firstBus ≤ b := UInt8.le_iff_toNat_le.mpr (by omega)
    by_cases hb' : b ≤ x.lastBus
    · have := UInt8.le_iff_toNat_le.mp hb'
      refine ⟨x, ?_⟩
      rw [List.filter_cons_of_pos (by simp [Tile.covers, hlo, hb']),
        hr.filter_covers_below (by omega)]
    · have : ¬ b.toNat ≤ x.lastBus.toNat := fun hn => hb' (UInt8.le_iff_toNat_le.mpr hn)
      rw [List.filter_cons_of_neg (by simp [Tile.covers, hb'])]
      exact ih (by omega)

end Spans

/-- The tile found for a bus is the one that has it. -/
theorem busTile_of_filter {t : Topology} {b : UInt8} {x : Tile}
    (h : t.tiles.filter (·.covers b) = [x]) : t.busTile b = .ok x := by
  have hf : t.tiles.find? (·.covers b) = some x := by rw [← List.head?_filter, h]; rfl
  simp only [busTile, hf]

/-! ## Arranging devices -/

theorem byBus_sorted (devices : List PciDevice) :
    (byBus devices).Pairwise fun a b => a.address.bus ≤ b.address.bus := by
  have := @List.pairwise_mergeSort PciDevice (fun a b => decide (a.address.bus ≤ b.address.bus))
    (fun a b c hab hbc => by simpa using UInt8.le_trans (by simpa using hab) (by simpa using hbc))
    (fun a b => by simpa using UInt8.le_total a.address.bus b.address.bus) devices
  simpa [byBus] using this

theorem byBus_perm (devices : List PciDevice) : (byBus devices).Perm devices :=
  List.mergeSort_perm _ _

/-- Neighbours on different buses make a sorted list strictly sorted. -/
theorem ascending_of_sharedBus? {ds : List PciDevice} (h : sharedBus? ds = none)
    (hs : ds.Pairwise fun a b => a.address.bus ≤ b.address.bus) :
    ds.Pairwise fun a b => a.address.bus < b.address.bus := by
  fun_induction sharedBus? ds with
  | case1 a b rest hab => cases h
  | case2 a b rest hab ih =>
    obtain ⟨ha, hs⟩ := List.pairwise_cons.mp hs
    have hb := ih h hs
    refine List.pairwise_cons.mpr ⟨fun c hc => ?_, hb⟩
    have hlt := UInt8.lt_of_le_of_ne (ha b (List.mem_cons_self ..)) hab
    rcases List.mem_cons.mp hc with rfl | hc
    · exact hlt
    · exact UInt8.lt_trans hlt ((List.pairwise_cons.mp hb).1 c hc)
  | case3 ds hn =>
    match ds, hn with
    | [], _ => exact List.Pairwise.nil
    | [a], _ => exact List.pairwise_singleton _ _
    | a :: b :: rest, hn => exact absurd rfl (hn a b rest)

/-- What arranging accepts, and makes of it. -/
theorem arrange_ok {devices : List PciDevice} {tiles : List Tile} (h : arrange devices = .ok tiles) :
    (devices.length = 4 ∨ devices.length = 8) ∧
      ((byBus devices).Pairwise fun a b => a.address.bus < b.address.bus) ∧
      (∃ d rest, byBus devices = d :: rest ∧ d.address.bus = 0) ∧ tiles = tilesFrom 0 (byBus devices) := by
  unfold arrange at h
  simp only at h
  split at h
  · cases h
  · rename_i hn
    split at h
    · cases h
    · rename_i hs
      split at h
      · cases h
      · rename_i d rest hd
        split at h
        · cases h
        · rename_i h0
          cases h
          exact ⟨by omega, ascending_of_sharedBus? hs (byBus_sorted devices),
            ⟨d, rest, hd, by simpa using h0⟩, rfl⟩

/-- Behind the first of strictly sorted devices no bus is 0, so there is a bus below each. -/
theorem tail_bus_pos {ds : List PciDevice} (h : ds.Pairwise fun a b => a.address.bus < b.address.bus) :
    ∀ d ∈ ds.tail, 0 < d.address.bus.toNat := by
  intro d hd
  cases ds with
  | nil => cases hd
  | cons a ds =>
    have := UInt8.lt_iff_toNat_lt.mp ((List.pairwise_cons.mp h).1 d hd)
    omega

theorem tilesFrom_spans {d : PciDevice} {ds : List PciDevice} (n : Nat)
    (h : (d :: ds).Pairwise fun a b => a.address.bus < b.address.bus) :
    Spans d.address.bus.toNat (tilesFrom n (d :: ds)) := by
  induction ds generalizing d n with
  | nil => exact .last rfl rfl
  | cons e ds ih =>
    obtain ⟨hd, h⟩ := List.pairwise_cons.mp h
    have hlt := UInt8.lt_iff_toNat_lt.mp (hd e (List.mem_cons_self ..))
    have hsub : (e.address.bus - 1).toNat = e.address.bus.toNat - 1 :=
      UInt8.toNat_sub_of_le _ _ (UInt8.le_iff_toNat_le.mpr (by show 1 ≤ _; omega))
    refine Spans.more rfl ?_ ?_
    · show d.address.bus.toNat ≤ (e.address.bus - 1).toNat
      omega
    · show Spans ((e.address.bus - 1).toNat + 1) (tilesFrom (n + 1) (e :: ds))
      rw [hsub, Nat.sub_add_cancel (by omega)]
      exact ih (n + 1) h

theorem length_tilesFrom (n : Nat) (ds : List PciDevice) : (tilesFrom n ds).length = ds.length := by
  induction ds generalizing n with
  | nil => rfl
  | cons d ds ih => exact congrArg (· + 1) (ih (n + 1))

theorem tilesFrom_place {n i : Nat} {ds : List PciDevice} {x : Tile} (h : (tilesFrom n ds)[i]? = some x) :
    x.index = n + i ∧ x.socket = (n + i) / Register.tilesPerSocket := by
  induction ds generalizing n i with
  | nil => simp [tilesFrom] at h
  | cons d ds ih =>
    cases i with
    | zero => cases h; exact ⟨rfl, rfl⟩
    | succ i =>
      have := ih (n := n + 1) (i := i) h
      rwa [Nat.add_assoc, Nat.add_comm 1 i] at this

/-- The device of a tile, by handle and address. -/
def device (x : Tile) : DeviceHandle × PciAddress := (x.handle, x.address)

theorem device_tilesFrom (n : Nat) (ds : List PciDevice) :
    (tilesFrom n ds).map device = ds.map fun d => (d.handle, d.address) := by
  induction ds generalizing n with
  | nil => rfl
  | cons d ds ih => exact congrArg ((d.handle, d.address) :: ·) (ih (n + 1))

/-! ## Numbers change no range -/

theorem withIds_getElem? {tiles : List Tile} {ids : List (Option UInt8)} {i : Nat} {y : Tile} :
    (withIds tiles ids)[i]? = some y ↔
      ∃ x id, tiles[i]? = some x ∧ ids[i]? = some id ∧ y = { x with id := id.getD 0 } := by
  simp only [withIds, List.getElem?_zipWith]
  constructor
  · intro h
    split at h
    · rename_i x id hx hid
      exact ⟨x, id, hx, hid, (Option.some.inj h).symm⟩
    · cases h
  · rintro ⟨x, id, hx, hid, rfl⟩
    rw [hx, hid]

theorem withIds_spans {lo : Nat} {tiles : List Tile} (h : Spans lo tiles) :
    ∀ ids : List (Option UInt8), ids.length = tiles.length → Spans lo (withIds tiles ids) := by
  induction h with
  | last hx hh =>
    intro ids hl
    obtain ⟨id, rfl⟩ := List.length_eq_one_iff.mp hl
    exact .last hx hh
  | more hx hh _ ih =>
    intro ids hl
    match ids, hl with
    | id :: ids, hl => exact .more hx hh (ih ids (by simpa using hl))

theorem withIds_device (tiles : List Tile) (ids : List (Option UInt8)) (hl : ids.length = tiles.length) :
    (withIds tiles ids).map device = tiles.map device := by
  induction tiles generalizing ids with
  | nil => rfl
  | cons x rest ih =>
    match ids, hl with
    | id :: ids, hl =>
      show device { x with id := id.getD 0 } :: (withIds rest ids).map device = device x :: rest.map device
      rw [ih ids (by simpa using hl)]
      rfl

theorem withIds_placed {tiles : List Tile} (h : Placed tiles) (ids : List (Option UInt8)) :
    Placed (withIds tiles ids) := by
  intro i y hy
  obtain ⟨x, id, hx, -, rfl⟩ := withIds_getElem?.mp hy
  exact h i x hx

/-! ## The tables that discovery makes -/

/-- One socket or two, each tile in its place, and every bus with one of them. -/
structure Arranged (tiles : List Tile) : Prop where
  spans : Spans 0 tiles
  placed : Placed tiles
  length : tiles.length = 4 ∨ tiles.length = 8

theorem arrange_arranged {devices : List PciDevice} {tiles : List Tile} (h : arrange devices = .ok tiles) :
    Arranged tiles := by
  obtain ⟨hl, hs, ⟨d, rest, hd, h0⟩, rfl⟩ := arrange_ok h
  refine ⟨?_, fun i x hx => by simpa using tilesFrom_place hx, ?_⟩
  · have hspan := tilesFrom_spans 0 (hd ▸ hs)
    rwa [h0, ← hd] at hspan
  · rw [length_tilesFrom, (byBus_perm devices).length_eq]
    exact hl

theorem length_withIds {tiles : List Tile} {ids : List (Option UInt8)} (hl : ids.length = tiles.length) :
    (withIds tiles ids).length = tiles.length := by
  simp [withIds, hl]

theorem withIds_arranged {tiles : List Tile} (h : Arranged tiles) {ids : List (Option UInt8)}
    (hl : ids.length = tiles.length) : Arranged (withIds tiles ids) := by
  refine ⟨withIds_spans h.spans ids hl, withIds_placed h.placed ids, ?_⟩
  rw [length_withIds hl]
  exact h.length

/-- Discovery ends in a table of one tile for each device, in ascending order of the buses, in which
    every bus has exactly one tile; the bus below a device that is not the first always exists. -/
theorem discovered_tiles_share_buses (devices : List PciDevice) :
    (∀ es t, Job.Yields (ofDevices devices) es (.ok t) →
      (t.tiles.map device).Perm (devices.map fun d => (d.handle, d.address)) ∧
      (∀ i x, t.tiles[i]? = some x → x.index = i ∧ x.socket = i / 4) ∧
      (t.tiles.Pairwise fun x y => x.firstBus < y.firstBus) ∧
      t.tiles.head?.map (·.firstBus) = some 0 ∧
      (∀ i x y, t.tiles[i]? = some x → t.tiles[i + 1]? = some y →
        x.lastBus.toNat + 1 = y.firstBus.toNat) ∧
      t.tiles.getLast?.map (·.lastBus) = some 0xFF ∧
      ∀ b, ∃ x, t.tiles.filter (·.covers b) = [x] ∧ t.busTile b = .ok x) ∧
    ∀ tiles, arrange devices = .ok tiles → ∀ d ∈ (byBus devices).tail, 0 < d.address.bus.toNat := by
  refine ⟨fun es t h => ?_, fun tiles h => tail_bus_pos (arrange_ok h).2.1⟩
  obtain ⟨tiles, words, ids, ht, ha, -, hw⟩ := yields_ofDevices h
  have hl : ids.length = tiles.length := by rw [ha.length_ids, List.length_map]
  have hA : Arranged t.tiles := hw ▸ withIds_arranged (arrange_arranged ht) hl
  refine ⟨?_, hA.placed, hA.spans.ascending, ?_, hA.spans.adjoining, hA.spans.last_highest, fun b => ?_⟩
  · rw [hw, withIds_device tiles ids hl, (arrange_ok ht).2.2.2, device_tilesFrom]
    exact (byBus_perm devices).map _
  · have h0 := hA.spans.head
    cases hh : t.tiles.head? with
    | none => rw [hh] at h0; cases h0
    | some x =>
      rw [hh] at h0
      exact congrArg some (UInt8.toNat_inj.mp (Option.some.inj h0))
  · obtain ⟨x, hx⟩ := hA.spans.filter_covers (Nat.zero_le b.toNat)
    exact ⟨x, hx, busTile_of_filter hx⟩

/-- Two sockets whose hardware numbers its tiles in an order of its own, found in another order. -/
def crossed : Simulation.State :=
  Simulation.ofPlans
    [⟨[0x40, 0x00, 0x60, 0x20], [0x20, 0x00, 0x60, 0x40], { interfaceVersion := 3 }⟩,
      ⟨[0x80, 0xA1, 0xFF, 0xC0], [0xE0, 0xC0, 0xA0, 0x80], { interfaceVersion := 3 }⟩] ⟨[]⟩

def crossedTable : Topology :=
  ⟨[⟨1, { bus := 0x00 }, 0, 0, 1, 0x00, 0x1F⟩, ⟨0, { bus := 0x20 }, 1, 0, 3, 0x20, 0x3F⟩,
    ⟨3, { bus := 0x40 }, 2, 0, 0, 0x40, 0x5F⟩, ⟨2, { bus := 0x60 }, 3, 0, 2, 0x60, 0x7F⟩,
    ⟨7, { bus := 0x80 }, 4, 1, 0, 0x80, 0x9F⟩, ⟨6, { bus := 0xA0 }, 5, 1, 1, 0xA0, 0xBF⟩,
    ⟨5, { bus := 0xC0 }, 6, 1, 3, 0xC0, 0xDF⟩, ⟨4, { bus := 0xE0 }, 7, 1, 2, 0xE0, 0xFF⟩]⟩

def onBus (bus : UInt8) (handle : DeviceHandle) : PciDevice :=
  { address := { bus := bus }, handle := handle }

theorem byBus_crossed : byBus crossed.found =
    [onBus 0x00 1, onBus 0x20 0, onBus 0x40 3, onBus 0x60 2, onBus 0x80 7, onBus 0xA0 6, onBus 0xC0 5,
      onBus 0xE0 4] := by
  have hf : crossed.found = [onBus 0x20 0, onBus 0x00 1, onBus 0x60 2, onBus 0x40 3, onBus 0xE0 4,
      onBus 0xC0 5, onBus 0xA0 6, onBus 0x80 7] := by
    decide +kernel
  rw [hf]
  simp [byBus, onBus, List.mergeSort, List.MergeSort.Internal.splitInTwo]

theorem arrange_crossed : arrange crossed.found = .ok (tilesFrom 0 (byBus crossed.found)) := by
  unfold arrange
  rw [byBus_crossed]
  decide +kernel

theorem run_crossed :
    (World.run Simulation.machine (ofDevices crossed.found) ⟨crossed, {}⟩).1 = .ok crossedTable := by
  rw [ofDevices, arrange_crossed, byBus_crossed]
  decide +kernel

theorem crossed_run :
    Job.Yields (ofDevices crossed.found)
      (World.transcript Simulation.machine (ofDevices crossed.found) ⟨crossed, {}⟩) (.ok crossedTable) := by
  exact run_crossed ▸ World.yields_transcript Simulation.machine (ofDevices crossed.found) ⟨crossed, {}⟩

theorem crossed_tiles_share_buses :
    (crossedTable.tiles.map device).Perm (crossed.found.map fun d => (d.handle, d.address)) ∧
      (∀ b, ∃ x, crossedTable.tiles.filter (·.covers b) = [x] ∧ crossedTable.busTile b = .ok x) ∧
      ∀ d ∈ (byBus crossed.found).tail, 0 < d.address.bus.toNat := by
  have h := (discovered_tiles_share_buses crossed.found).1 _ _ crossed_run
  exact ⟨h.1, h.2.2.2.2.2.2, (discovered_tiles_share_buses crossed.found).2 _ arrange_crossed⟩

end FirmwareMailbox.Topology
