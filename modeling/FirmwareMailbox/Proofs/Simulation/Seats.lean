/-
  FirmwareMailbox.Proofs.Simulation.Seats — which simulated socket a socket of the table is.

  The table knows a socket by its mailbox tile, and the simulated machine has a socket behind the device of
  the tile: its seat (`State.seat`). Only the wiring of the devices counts for that, which no message
  changes. On a machine in good health every socket of the table has a seat, and no two have the same
  (`Healthy.seated`): behind one seat, the first tiles of both would read the same register and report the
  same bus, and discovery does not accept that.
-/

import FirmwareMailbox.Proofs.Simulation.Health
import FirmwareMailbox.Proofs.Simulation.Windows
import FirmwareMailbox.Proofs.Topology.Consistency

namespace FirmwareMailbox.Simulation

namespace State

variable {m m' : State} {t : Topology} {n i : Nat}

/-- The simulated socket behind the mailbox tile of socket `n`. -/
def seat (m : State) (t : Topology) (n : Nat) : Option Nat :=
  match t.mailboxTile n with
  | .ok x => (m.devices[x.handle]?).map (·.socket)
  | .error _ => none

theorem seat_eq_some : m.seat t n = some i ↔
    ∃ x d, t.mailboxTile n = .ok x ∧ m.devices[x.handle]? = some d ∧ d.socket = i := by
  unfold seat
  constructor
  · intro h
    split at h
    · rename_i x hx
      obtain ⟨d, hd, rfl⟩ := Option.map_eq_some_iff.mp h
      exact ⟨x, d, hx, hd, rfl⟩
    · cases h
  · rintro ⟨x, d, hx, hd, rfl⟩
    simp only [hx, hd, Option.map_some]

/-- A socket that is not there has no seat. -/
theorem seat_absent (h : t.socketCount ≤ n) : m.seat t n = none := by
  simp only [seat, Topology.mailboxTile_absent h]

/-- Wiring decides the seats. -/
theorem seat_of_wiring (h : m'.devices.map Device.wiring = m.devices.map Device.wiring) :
    m'.seat t n = m.seat t n := by
  have hsocket : ∀ k : Nat, (m'.devices[k]?).map (·.socket) = (m.devices[k]?).map (·.socket) := by
    intro k
    have hk := congrArg (fun l => (l[k]?).map Prod.fst) h
    simp only [List.getElem?_map, Option.map_map] at hk
    exact hk
  unfold seat
  cases t.mailboxTile n with
  | error e => rfl
  | ok x => exact hsocket x.handle

/-- Every socket of the table has a seat, and its own. -/
structure Seated (m : State) (t : Topology) : Prop where
  present : ∀ n < t.socketCount, ∃ i < m.sockets.length, m.seat t n = some i
  apart : ∀ {n n' i}, m.seat t n = some i → m.seat t n' = some i → n = n'

/-- Behind devices of one socket the registers hold the same words. -/
theorem word_congr {h h' : DeviceHandle} {d d' : Device} (hd : m.devices[h]? = some d)
    (hd' : m.devices[h']? = some d') (hw : d'.wiring = d.wiring) (a : UInt32) : m.word h' a = m.word h a := by
  obtain ⟨hsocket, hbroken⟩ := Prod.mk.inj hw
  simp only [word, hd, hd', hsocket, hbroken]

end State

/-! ## What the tiles report -/

/-- A tile reports the bus that the register of its place holds. -/
theorem runs_reportedBus {m : State} {mem : Memory} {x : Tile} {es : List Event} {b : UInt8} {v : World State}
    (h : World.Runs machine (Topology.reportedBus x) ⟨m, mem⟩ es (.ok b) v) :
    (∃ word, m.word x.handle (Register.busNumber (x.index % 4)) = .ok word ∧ b = word.toUInt8) ∧
      m.Idle v.machine := by
  obtain ⟨_, _, word, u, -, hread, hp⟩ := World.runs_bind_ok.mp h
  obtain ⟨-, hb, rfl⟩ := World.runs_pure.mp hp
  obtain ⟨m', hr, hidle⟩ := run_smn_read m x.handle (busNumber_ne_status (x.index % 4)) mem
  have hsame := hread.run.symm.trans hr
  obtain ⟨hword, rfl⟩ := Prod.mk.inj hsame
  exact ⟨⟨word, hword.symm, Except.ok.inj hb⟩, hidle⟩

/-- So does every tile of a list that is asked. -/
theorem runs_reports {m : State} {mem : Memory} {asked : List Tile} {es : List Event} {buses : List UInt8}
    {v : World State} (h : World.Runs machine (asked.mapM Topology.reportedBus) ⟨m, mem⟩ es (.ok buses) v)
    {i : Nat} {x : Tile} (hx : asked[i]? = some x) :
    ∃ word, m.word x.handle (Register.busNumber (x.index % 4)) = .ok word ∧ buses[i]? = some word.toUInt8 := by
  induction asked generalizing m mem es buses i with
  | nil => simp at hx
  | cons y rest ih =>
    rw [List.mapM_cons] at h
    obtain ⟨_, _, b, ⟨u, mem'⟩, -, hy, h⟩ := World.runs_bind_ok.mp h
    obtain ⟨_, _, others, _, -, hr, hp⟩ := World.runs_bind_ok.mp h
    obtain ⟨-, hb, rfl⟩ := World.runs_pure.mp hp
    cases hb
    obtain ⟨⟨word, hword, rfl⟩, hidle⟩ := runs_reportedBus hy
    cases i with
    | zero =>
      cases hx
      exact ⟨word, hword, rfl⟩
    | succ i =>
      obtain ⟨word', hword', hb⟩ := ih hr (by simpa using hx)
      have hports : u.ports = m.ports := Prod.ext hidle.devices (by unfold State.ports; rw [hidle.sockets])
      exact ⟨word', by rw [← word_of_ports hports]; exact hword', hb⟩

/-! ## Machines in good health -/

namespace Healthy

variable {c : Config} {v : UInt32} {t : Topology} {m : State} (h : Healthy c v t m)

include h

/-- Discovery asked all tiles, and their reports go together. -/
theorem exists_reports : ∃ tiles ids es buses u, Topology.Arranged tiles ∧ t.tiles = Topology.withIds tiles ids ∧
    World.Runs machine (tiles.mapM Topology.reportedBus) ⟨(machine.devices m).2, {}⟩ es (.ok buses) u ∧
    Topology.Consistent tiles buses := by
  obtain ⟨m', hrun, -⟩ := h.run_ofDevices
  have hyields := World.yields_transcript machine (Topology.ofDevices m.found) ⟨(machine.devices m).2, {}⟩
  rw [hrun] at hyields
  obtain ⟨tiles, words, ids, harrange, -, -, hwith⟩ := Topology.yields_ofDevices hyields
  have hA := Topology.arrange_arranged harrange
  rcases Topology.arrange_cases m.found with ⟨ho, ha⟩ | ⟨c, -, he⟩
  · cases ha.symm.trans harrange
    rcases ho.runs machine ⟨(machine.devices m).2, {}⟩ with ⟨es, _, u, buses, -, hr, hc⟩ | ⟨_, _, _, _, hr, -⟩
    · exact ⟨_, ids, es, buses, u, hA, hwith, hr, hc⟩
    · cases hrun.symm.trans hr.run
  · cases he.symm.trans harrange

/-- The first tiles of two sockets do not report from the same registers. -/
theorem mailboxTile_apart {n n' : Nat} {x x' : Tile} (hx : t.mailboxTile n = .ok x)
    (hx' : t.mailboxTile n' = .ok x') (hw : ∀ a, m.word x'.handle a = m.word x.handle a) : n = n' := by
  obtain ⟨tiles, ids, es, buses, u, hA, hwith, hr, hc⟩ := h.exists_reports
  -- the mailbox tile of a socket is the first of its four, and asks the first register
  have hreport : ∀ {k : Nat} {z : Tile}, t.mailboxTile k = .ok z →
      ∃ word, m.word z.handle (Register.busNumber 0) = .ok word ∧ buses[4 * k]? = some word.toUInt8 := by
    intro k z hz
    have hz' := Topology.tile_of_mailboxTile hz
    rw [hwith] at hz'
    obtain ⟨y, id, hy, -, rfl⟩ := Topology.withIds_getElem?.mp hz'
    have hplace : y.index % 4 = 0 := by
      rw [(hA.placed _ y hy).1]
      omega
    obtain ⟨word, hword, hb⟩ := runs_reports hr hy
    rw [hplace] at hword
    exact ⟨word, hword, hb⟩
  obtain ⟨word, hword, hb⟩ := hreport hx
  obtain ⟨word', hword', hb'⟩ := hreport hx'
  rw [hw, hword] at hword'
  cases hword'
  have hplace := hc.eq_of_report hA hb hb'
  omega

theorem seated : m.Seated t := by
  constructor
  · intro n hn
    obtain ⟨x, hx, hok⟩ := Topology.mailboxTile_present hn
    obtain ⟨f, hf, he⟩ := h.exists_found hx
    have hlt := h.found f hf
    rw [he] at hlt
    obtain ⟨-, hs⟩ := h.devices _ (List.getElem_mem hlt)
    exact ⟨_, hs, State.seat_eq_some.mpr ⟨x, _, hok, List.getElem?_eq_getElem hlt, rfl⟩⟩
  · intro n n' i hn hn'
    obtain ⟨x, d, hx, hd, rfl⟩ := State.seat_eq_some.mp hn
    obtain ⟨x', d', hx', hd', hs⟩ := State.seat_eq_some.mp hn'
    have hb := (h.devices d (List.mem_of_getElem? hd)).1
    have hb' := (h.devices d' (List.mem_of_getElem? hd')).1
    exact h.mailboxTile_apart hx hx' (State.word_congr hd hd' (Prod.ext hs (hb'.trans hb.symm)))

end Healthy

end FirmwareMailbox.Simulation
