/-
  FirmwareMailbox.Proofs.Topology.Report — what discovery asks, and what it makes of the answers.

  Discovery asks every tile of the arranged table once, in order, for the bus that the register of
  its own place names (`report`). The answers alone decide the numbers: `Assigns` is the loop
  without its questions, one claim after the other. A run that ends in a table is the questions, and
  an assignment over the words that came back (`yields_ofDevices`).
-/

import FirmwareMailbox.Proofs.Register.Access
import FirmwareMailbox.Topology.Discovery

namespace FirmwareMailbox.Topology

/-- A tile's question and the word it was answered. -/
def report (x : Tile) (w : UInt32) : List Event :=
  Aperture.smn.loaded x.handle (Register.busNumber (x.index % Register.tilesPerSocket)) w

/-- The number that a tile's report gives away: its own place within its socket. -/
def place (x : Tile) : UInt8 := UInt8.ofNat (x.index % Register.tilesPerSocket)

/-- Asking the tiles of a list, and being answered these words, takes the numbers given so far to
    these. -/
inductive Assigns (tiles : List Tile) :
    List Tile → List UInt32 → List (Option UInt8) → List (Option UInt8) → Prop
  | done (ids : List (Option UInt8)) : Assigns tiles [] [] ids ids
  | claim {x : Tile} {rest : List Tile} {w : UInt32} {ws : List UInt32} {ids ids' : List (Option UInt8)}
      {slot : Nat} : claim tiles ids x w.toUInt8 = .ok slot →
      Assigns tiles rest ws (ids.set slot (some (place x))) ids' →
      Assigns tiles (x :: rest) (w :: ws) ids ids'

/-- The tiles with their numbers. -/
def withIds (tiles : List Tile) (ids : List (Option UInt8)) : List Tile :=
  tiles.zipWith (fun x id => { x with id := id.getD 0 }) ids

/-- A claim that is granted is one on a place of the claimant's socket that has no number yet: the
    place of the tile that has the bus. -/
theorem claim_ok {tiles : List Tile} {ids : List (Option UInt8)} {x : Tile} {bus : UInt8} {slot : Nat}
    (h : claim tiles ids x bus = .ok slot) :
    ∃ owner, tiles.find? (·.covers bus) = some owner ∧ owner.socket = x.socket ∧ owner.index = slot ∧
      ids[slot]? = some none := by
  unfold claim at h
  split at h
  · cases h
  · rename_i owner ho
    split at h
    · cases h
    · rename_i hs
      split at h
      · rename_i hn
        cases h
        exact ⟨owner, ho, by simpa using hs, rfl, hn⟩
      · cases h

namespace Assigns

variable {tiles asked : List Tile} {words : List UInt32} {ids ids' : List (Option UInt8)}

theorem length_words (h : Assigns tiles asked words ids ids') : words.length = asked.length := by
  induction h with
  | done ids => rfl
  | claim _ _ ih => rw [List.length_cons, List.length_cons, ih]

theorem length_ids (h : Assigns tiles asked words ids ids') : ids'.length = ids.length := by
  induction h with
  | done ids => rfl
  | claim _ _ ih => rw [ih, List.length_set]

end Assigns

variable {es : List Event}

theorem yields_reportedBus {x : Tile} {bus : UInt8} (h : Job.Yields (reportedBus x) es (.ok bus)) :
    ∃ w : UInt32, bus = w.toUInt8 ∧ es = report x w := by
  rcases Aperture.yields_read_bind h with ⟨e, he, -⟩ | ⟨w, gs, rfl, hp⟩
  · cases he
  · obtain ⟨rfl, hb⟩ := Job.yields_pure.mp hp
    cases hb
    exact ⟨w, rfl, List.append_nil _⟩

theorem yields_numberTiles {tiles asked : List Tile} {ids ids' : List (Option UInt8)}
    (h : Job.Yields (numberTiles tiles asked ids) es (.ok ids')) :
    ∃ words, Assigns tiles asked words ids ids' ∧ es = (asked.zipWith report words).flatten := by
  induction asked generalizing ids es with
  | nil =>
    obtain ⟨rfl, hr⟩ := Job.yields_pure.mp h
    cases hr
    exact ⟨[], .done _, rfl⟩
  | cons x rest ih =>
    rw [numberTiles] at h
    obtain ⟨fs, gs, bus, rfl, hr, hn⟩ := Job.yields_bind_ok.mp h
    obtain ⟨w, rfl, rfl⟩ := yields_reportedBus hr
    split at hn
    · cases (Job.yields_throw.mp hn).2
    · rename_i slot hc
      obtain ⟨words, ha, rfl⟩ := ih hn
      exact ⟨w :: words, .claim hc ha, rfl⟩

/-- A run of discovery that ends in a table. -/
theorem yields_ofDevices {devices : List PciDevice} {t : Topology}
    (h : Job.Yields (ofDevices devices) es (.ok t)) :
    ∃ tiles words ids, arrange devices = .ok tiles ∧
      Assigns tiles tiles words (tiles.map fun _ => none) ids ∧
      es = (tiles.zipWith report words).flatten ∧ t.tiles = withIds tiles ids := by
  unfold ofDevices at h
  split at h
  · cases (Job.yields_throw.mp h).2
  · rename_i tiles ht
    obtain ⟨fs, gs, ids, rfl, hn, hp⟩ := Job.yields_bind_ok.mp h
    obtain ⟨rfl, hr⟩ := Job.yields_pure.mp hp
    cases hr
    obtain ⟨words, ha, rfl⟩ := yields_numberTiles hn
    exact ⟨tiles, words, ids, ht, ha, List.append_nil _, rfl⟩

end FirmwareMailbox.Topology
