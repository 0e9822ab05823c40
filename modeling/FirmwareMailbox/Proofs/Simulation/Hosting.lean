/-
  FirmwareMailbox.Proofs.Simulation.Hosting — the state of an interface reaches the tile that has the bus.

  The order of the buses says which tile has a bus, and says nothing about the tile's number. That is the
  register of the tile's socket that reported a bus of the tile when the machine was learned: one of the four
  did, and no other (`Topology.Hosts`). An operation on the interface of a bus asks the gate and then sends one
  message, to the socket of the tile and with that number (`World.runs_setInterfaceState`), whatever the
  machine makes of it. Firmware changes the levels of this number, in the seat of the socket, and no others
  (`Became.setInterfaceState`).
-/

import FirmwareMailbox.Proofs.Session.Refusing
import FirmwareMailbox.Proofs.Simulation.Changing

namespace FirmwareMailbox

/-! ## The tile and its number -/

namespace Topology

/-- The tile `x` has the bus, and of the words that the registers of its socket reported, that of register
    `k` and of no other names a bus of the tile. -/
structure Hosts (t : Topology) (words : List UInt32) (bus : UInt8) (x : Tile) (k : Nat) : Prop where
  owner : t.tiles.filter (·.covers bus) = [x]
  number : k < 4
  id : x.id = UInt8.ofNat k
  reported : ∀ j < 4, ∃ w, words[4 * x.socket + j]? = some w ∧ (x.covers (w &&& 0xFF).toUInt8 = true ↔ j = k)

theorem ofNat_inj {j k : Nat} (hj : j < 4) (hk : k < 4) (h : UInt8.ofNat j = UInt8.ofNat k) : j = k := by
  have hnat := congrArg UInt8.toNat h
  simp only [UInt8.toNat_ofNat'] at hnat
  omega

/-- In a table that discovery ends in, every bus has its tile, whose number is the register that reported
    it. -/
theorem exists_host {devices : List PciDevice} {es : List Event} {t : Topology}
    (h : Job.Yields (ofDevices devices) es (.ok t)) :
    ∃ words, es = (t.tiles.zipWith report words).flatten ∧
      ∀ bus, ∃ x k, t.Hosts words bus x k ∧ x.socket < t.socketCount := by
  obtain ⟨hA', hnumbers⟩ := numbers_of_yields h
  obtain ⟨tiles, words, ids, ht, ha, rfl, hw⟩ := yields_ofDevices h
  have hA := arrange_arranged ht
  have hl : ids.length = tiles.length := by rw [ha.length_ids, List.length_map]
  refine ⟨words, by rw [hw, zipWith_report_withIds tiles ids words hl], fun bus => ?_⟩
  obtain ⟨x, hx⟩ := hA'.spans.filter_covers (Nat.zero_le bus.toNat)
  obtain ⟨hs, hid⟩ := tile_of_bus hA' hnumbers hx
  have hmem : x ∈ t.tiles := (List.mem_filter.mp (hx ▸ List.mem_singleton_self x)).1
  have hk : x.id.toNat < 4 ∧ x.id = UInt8.ofNat x.id.toNat := by
    simp only [List.mem_cons, List.not_mem_nil, or_false] at hid
    rcases hid with hid | hid | hid | hid <;> rw [hid] <;> decide
  refine ⟨x, x.id.toNat, ⟨hx, hk.1, hk.2, fun j hj => ?_⟩, hs⟩
  have hs' : x.socket < tiles.length / Register.tilesPerSocket := by
    rwa [socketCount, hw, length_withIds hl] at hs
  obtain ⟨w, y, hwj, hy, hys, hyj, hyc⟩ := hA.reported ha hs' hj
  rw [← hw] at hy
  refine ⟨w, hwj, ?_⟩
  rw [toUInt8_and_mask]
  constructor
  · intro hc
    -- the bus that was reported has one tile, so the two are one and have one number
    obtain ⟨z, hz⟩ := hA'.spans.filter_covers (Nat.zero_le w.toUInt8.toNat)
    obtain rfl := eq_of_filter_singleton hz hmem hc
    obtain rfl := eq_of_filter_singleton hz hy hyc
    exact ofNat_inj hj hk.1 (hyj.symm.trans hk.2)
  · rintro rfl
    have hone := filter_id (hnumbers _ hs) hmem rfl
    have hsame : y.socket = x.socket ∧ y.id = x.id := ⟨hys, hyj.trans hk.2.symm⟩
    rw [eq_of_filter_singleton hone hy (by simpa using hsame)]
    exact hyc

/-- Nothing is wrong with levels for a tile with one of the four numbers. -/
theorem Hosts.fits {t : Topology} {words : List UInt32} {bus : UInt8} {x : Tile} {k : Nat}
    (h : t.Hosts words bus x k) (p : InterfaceState) :
    Layout.fault? ({ tile := x.id, max := p.levels.2, min := p.levels.1 } : LevelRange) = none := by
  apply Operation.levels_fit
  rw [h.id]
  have hk := h.number
  obtain rfl | rfl | rfl | rfl : k = 0 ∨ k = 1 ∨ k = 2 ∨ k = 3 := by omega
  all_goals decide

end Topology

/-! ## One message -/

/-- Levels for the tile with number `k`, as a message. -/
def levelMessage (k : Nat) (p : InterfaceState) : Message :=
  { id := .setNbioDpmLevel
    args := [(UInt32.ofNat k <<< 16) ||| (p.levels.2.toUInt32 <<< 8) ||| p.levels.1.toUInt32] }

theorem toUInt32_ofNat {k : Nat} (hk : k < 4) : (UInt8.ofNat k).toUInt32 = UInt32.ofNat k := by
  obtain rfl | rfl | rfl | rfl : k = 0 ∨ k = 1 ∨ k = 2 ∨ k = 3 := by omega
  all_goals rfl

/-- The errand for a bus goes to the socket of its tile. -/
theorem Operation.errand_setInterfaceState {inv : Inventory} {words : List UInt32} {bus : UInt8} {x : Tile}
    {k : Nat} (hx : inv.topology.Hosts words bus x k) (p : InterfaceState) :
    (setInterfaceState bus p).errand inv = .ok (.set x.socket (levelMessage k p)) := by
  simp only [errand, Topology.busTile_of_filter hx.owner, bind, Except.bind, hx.fits p]
  rw [levelMessage, ← toUInt32_ofNat hx.number, ← hx.id]
  rfl

namespace World

variable {μ : Type} {M : Machine μ} {s : Session} {w w' : World μ} {es : List Event} {inv : Inventory}

/-- The process knows its machine, may talk to it, and has not given up on it. -/
structure Initialised (M : Machine μ) (inv : Inventory) (w : World μ) : Prop where
  privileged : M.isPrivileged w.machine = true
  working : w.memory.disabled = false
  inventory : w.memory.inventory = some inv

/-- Setting the state of an interface is the questions of the gate and one exchange. -/
theorem runs_setInterfaceState {words : List UInt32} {bus : UInt8} {x home : Tile} {k : Nat}
    {p : InterfaceState} {r : Except Error Answer} (hw : w.Initialised M inv)
    (hv : 2 ≤ inv.capabilities.interfaceVersion) (hx : inv.topology.Hosts words bus x k)
    (hhome : inv.topology.mailboxTile x.socket = .ok home)
    (h : Runs M ((Operation.setInterfaceState bus p).perform s) w es r w') :
    ∃ qs fs y, es = qs ++ fs ∧ Questions qs ∧
      Runs M ((levelMessage k p).exchange s.config home.handle inv.capabilities.highestMessage) w fs y w' ∧
      r = y.map fun _ => .nothing := by
  have ho : (Operation.setInterfaceState bus p).disorder? = none := rfl
  rw [Operation.perform_gate s ho] at h
  rcases runs_bind.mp h with ⟨e, rfl, hg⟩ | ⟨qs, fs, inv', u, rfl, hg, hrest⟩
  · obtain ⟨-, -, ⟨he, -⟩ | ⟨id, hask, hold, -⟩⟩ := runs_gate_known hw.privileged hw.working hw.inventory hg
    · cases he
    · cases hask
      exact absurd hv hold
  obtain ⟨hq, rfl, ⟨he, -⟩ | ⟨id, -, -, he⟩⟩ := runs_gate_known hw.privileged hw.working hw.inventory hg
  case inr => cases he
  cases he
  rw [Operation.rest_eq s _ (by simp), Operation.errand_setInterfaceState hx p] at hrest
  have hdeliver : s.deliver inv x.socket (levelMessage k p) =
      (levelMessage k p).exchange s.config home.handle inv.capabilities.highestMessage := by
    unfold Session.deliver
    rw [hhome]
    rfl
  change Runs M (s.deliver inv x.socket (levelMessage k p) >>= fun _ => pure Answer.nothing) u fs r w' at hrest
  rw [hdeliver] at hrest
  rcases runs_bind.mp hrest with ⟨e, rfl, hx'⟩ | ⟨gs, hs, ws, v, rfl, hx', hp⟩
  · exact ⟨qs, fs, .error e, rfl, hq, hx', rfl⟩
  · obtain ⟨rfl, rfl, rfl⟩ := runs_pure.mp hp
    rw [List.append_nil]
    exact ⟨qs, gs, .ok ws, rfl, hq, hx', rfl⟩

end World

/-! ## Simulated firmware -/

/-- The firmware keeps the levels under the number. -/
theorem Firmware.perform_levels {k : Nat} (hk : k < 4) (p : InterfaceState) (f : Firmware) :
    f.perform ((levelMessage k p).args.headD 0) (levelMessage k p).id = .ok ([], { f with
      interfaceLevels := WordMap.insert (UInt32.ofNat k) (p.levels.2.toUInt32, p.levels.1.toUInt32)
        f.interfaceLevels }) := by
  obtain rfl | rfl | rfl | rfl : k = 0 ∨ k = 1 ∨ k = 2 ∨ k = 3 := by omega
  all_goals cases p <;> rfl

namespace Simulation

namespace Site

variable {S : Site} {home : State} {inv : Inventory} {F F' : List Firmware}

/-- In the seat of the tile's socket, the levels of the tile's number are the ones of the state; nothing else
    is another. -/
theorem Became.setInterfaceState {words : List UInt32} {bus : UInt8} {x : Tile} {k : Nat} {p : InterfaceState}
    {a : Answer} (h : S.Became home inv (.setInterfaceState bus p) F (.ok a) F')
    (hx : inv.topology.Hosts words bus x k) :
    ∃ i f levels, home.seat S.topology x.socket = some i ∧ F[i]? = some f ∧
      F' = F.set i { f with interfaceLevels := levels } ∧
      ∀ key, levels.at? key = if key = UInt32.ofNat k then some (p.levels.2.toUInt32, p.levels.1.toUInt32)
        else f.interfaceLevels.at? key := by
  obtain ⟨i, f, ws, f', hi, hf, hperf, -, hset⟩ := h.sent (Operation.errand_setInterfaceState hx p)
  rw [Firmware.perform_levels hx.number p f] at hperf
  cases hperf
  exact ⟨i, f, _, hi, hf, hset, fun key => WordMap.at?_insert _ key _ _⟩

end Site

/-- Every bus of a machine that was discovered has one tile, and of the registers of the tile's socket one
    alone reported a bus of the tile: its number is below 4. Setting the state of the interface of the bus is,
    in a process that knows the machine and whose firmware has the message, what the gate asks and one
    message, sent to the socket of the tile with the number of that register and the two levels; its
    arguments are not refused. On a machine in good health it works, and the levels of that number in that
    socket are the ones of the state afterwards; no other entry and no other setting of any socket is
    another. -/
theorem interface_state_reaches_host {devices : List PciDevice} {es₀ : List Event} {t : Topology}
    (h : Job.Yields (Topology.ofDevices devices) es₀ (.ok t)) :
    ∃ words, es₀ = (t.tiles.zipWith Topology.report words).flatten ∧
      ∀ (bus : UInt8) (p : InterfaceState), ∃ x k home, t.Hosts words bus x k ∧
        t.mailboxTile x.socket = .ok home ∧
        Layout.fault? ({ tile := x.id, max := p.levels.2, min := p.levels.1 } : LevelRange) = none ∧
        (∀ {μ : Type} (M : Machine μ) (s : Session) (w : World μ) (inv : Inventory), inv.topology = t →
          w.Initialised M inv → 2 ≤ inv.capabilities.interfaceVersion →
          ∀ es r w', World.Runs M ((Operation.setInterfaceState bus p).perform s) w es r w' →
            ∃ qs fs y, es = qs ++ fs ∧ World.Questions qs ∧
              World.Runs M ((levelMessage k p).exchange s.config home.handle inv.capabilities.highestMessage)
                w fs y w' ∧ r = y.map fun _ => .nothing) ∧
        ∀ {c : Config} {v : UInt32} {m : State}, Healthy c v t m → 2 ≤ v → ∀ s : Session, s.config = c →
          ∀ ops, let w := (World.performAll machine s ops ⟨m, {}⟩).2
            ∃ a w' i f levels, World.run machine ((Operation.setInterfaceState bus p).perform s) w = (.ok a, w') ∧
              m.seat t x.socket = some i ∧ w.machine.settings[i]? = some f ∧
              w'.machine.settings = w.machine.settings.set i { f with interfaceLevels := levels } ∧
              ∀ key, levels.at? key = if key = UInt32.ofNat k
                then some (p.levels.2.toUInt32, p.levels.1.toUInt32) else f.interfaceLevels.at? key := by
  obtain ⟨words, hes, hhost⟩ := Topology.exists_host h
  refine ⟨words, hes, fun bus p => ?_⟩
  obtain ⟨x, k, hx, hs⟩ := hhost bus
  obtain ⟨home, -, hhome⟩ := Topology.mailboxTile_present hs
  refine ⟨x, k, home, hx, hhome, hx.fits p, ?_, ?_⟩
  · intro μ M s w inv ht hw hv es r w' hrun
    subst ht
    exact World.runs_setInterfaceState hw hv hx hhome hrun
  · intro c v m hm hv s hc ops
    obtain ⟨firmware, hd, hafter⟩ := hm.waits_after hc
    have hw := hafter ops
    have hversion : ∀ id, (Operation.setInterfaceState bus p).message? = some id → id.minVersion ≤ v := by
      intro id hid'
      cases hid'
      exact hv
    obtain ⟨a, w', hrun, -, hb⟩ := hw.works hd hm.seated hversion id
    obtain ⟨i, f, levels, hi, hf, hset, hlevels⟩ := hb.setInterfaceState hx
    exact ⟨a, w', i, f, levels, hrun, hi, hf, hset, hlevels⟩

theorem crossed_interface_set : ∃ home, Topology.crossedTable.mailboxTile 1 = .ok home ∧
    (∃ inv, World.Initialised machine inv ⟨sound, { inventory := some inv }⟩ ∧
      ∀ es r w', World.Runs machine ((Operation.setInterfaceState 0xC5 .auto).perform ⟨config⟩)
        ⟨sound, { inventory := some inv }⟩ es r w' → ∃ qs fs y, es = qs ++ fs ∧ World.Questions qs ∧
          World.Runs machine (Message.exchange config home.handle { id := .setNbioDpmLevel, args := [0x30200] }
            (some .getDdrBandwidth)) ⟨sound, { inventory := some inv }⟩ fs y w' ∧ r = y.map fun _ => .nothing) ∧
    Healthy config 3 Topology.crossedTable sound ∧
    ∃ a w' i, ∃ f : Firmware, ∃ levels : WordMap (UInt32 × UInt32),
      World.run machine ((Operation.setInterfaceState 0xC5 .auto).perform ⟨config⟩) ⟨sound, {}⟩ = (.ok a, w') ∧
      sound.seat Topology.crossedTable 1 = some i ∧
      w'.machine.settings = sound.settings.set i { f with interfaceLevels := levels } ∧
      levels.at? 3 = some (2, 0) := by
  obtain ⟨words, -, hhost⟩ := interface_state_reaches_host Topology.crossed_run
  obtain ⟨x, k, home, hx, hhome, -, hone, hset⟩ := hhost 0xC5 .auto
  have howner : Topology.crossedTable.tiles.filter (·.covers 0xC5) = [⟨5, { bus := 0xC0 }, 6, 1, 3, 0xC0, 0xDF⟩] := by
    decide
  obtain rfl := List.singleton_inj.mp (howner.symm.trans hx.owner)
  obtain rfl : k = 3 := Topology.ofNat_inj hx.number (by decide) hx.id.symm
  have hmessage : levelMessage 3 .auto = { id := .setNbioDpmLevel, args := [0x30200] } := by decide
  rw [hmessage] at hone
  obtain ⟨a, w', i, f, levels, hrun, hi, -, hsettings, hlevels⟩ :=
    hset sound_healthy (by decide) ⟨config⟩ rfl []
  have hkey : levels.at? 3 = some (2, 0) := (hlevels 3).trans (if_pos rfl)
  have hexchange := hone machine ⟨config⟩ ⟨sound, { inventory := some ⟨sound.processor, Topology.crossedTable,
    sound.cpus, ⟨{}, 3⟩⟩ }⟩ _ rfl ⟨rfl, rfl, rfl⟩ (by decide)
  exact ⟨home, hhome, ⟨_, ⟨rfl, rfl, rfl⟩, hexchange⟩, sound_healthy, a, w', i, f, levels, hrun, hi, hsettings, hkey⟩

end Simulation

end FirmwareMailbox
