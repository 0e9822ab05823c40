/-
  FirmwareMailbox.Proofs.Simulation.Health — simulated machines in good health.

  Nothing is broken, the scan finds a table of tiles, and all firmware is willing and of one version
  (`Healthy`). Such a machine serves the site that it is, so the first operation learns it and later
  ones know it; either way the gate opens on one inventory (`Site.Door`).
-/

import FirmwareMailbox.Proofs.Simulation.Serving

namespace FirmwareMailbox

namespace Simulation

/-- A machine in good health, whose firmware is of version `v` and whose tiles are `t`. -/
structure Healthy (c : Config) (v : UInt32) (t : Topology) (m : State) : Prop where
  polls : c.polls ≠ 0
  lock : Lockable c m
  privileged : m.privileged = true
  processor : m.processor.requireMailbox = .ok ()
  version : v ≠ 0
  firmware : ∀ s ∈ m.sockets, s.firmware.Willing v
  devices : ∀ d ∈ m.devices, d.broken = false ∧ d.socket < m.sockets.length
  found : ∀ f ∈ m.found, f.handle < m.devices.length
  discovery : (World.run machine (Job.devices >>= Topology.ofDevices) ⟨m, {}⟩).1 = .ok t
  boost : ∀ p ∈ m.cpus.entries, ∀ x s, t.mailboxTile p.2.socket = .ok x → m.behind x.handle = some s →
    (s.firmware.boostLimits.at? p.2.apicId).isSome = true

namespace Healthy

variable {c : Config} {v : UInt32} {t : Topology} {m : State} (h : Healthy c v t m)

include h

theorem run_ofDevices : ∃ m', World.run machine (Topology.ofDevices m.found) ⟨(machine.devices m).2, {}⟩ =
    (.ok t, ⟨m', {}⟩) ∧ m.Idle m' := by
  have hrun : World.run machine (Job.devices >>= Topology.ofDevices) ⟨m, {}⟩ =
      World.run machine (Topology.ofDevices m.found) ⟨(machine.devices m).2, {}⟩ := World.run_bind_ok rfl
  have hd := h.discovery
  rw [hrun] at hd
  have hc := conducts_ofDevices m.found ⟨(machine.devices m).2, {}⟩
  change State.Idle (machine.devices m).2
    (World.run machine (Topology.ofDevices m.found) ⟨(machine.devices m).2, {}⟩).2.machine ∧
      (World.run machine (Topology.ofDevices m.found) ⟨(machine.devices m).2, {}⟩).2.memory = _ at hc
  rcases hw : World.run machine (Topology.ofDevices m.found) ⟨(machine.devices m).2, {}⟩ with ⟨r, m', mem⟩
  rw [hw] at hd hc
  obtain ⟨hi, rfl⟩ := hc
  cases hd
  exact ⟨m', rfl, { hi with }⟩

theorem yields_ofDevices : ∃ es, Job.Yields (Topology.ofDevices m.found) es (.ok t) := by
  obtain ⟨m', hr, -⟩ := h.run_ofDevices
  have hy := World.yields_transcript machine (Topology.ofDevices m.found) ⟨(machine.devices m).2, {}⟩
  rw [hr] at hy
  exact ⟨_, hy⟩

/-- What stays the same about the machine. -/
def site : Site where
  config := c
  version := v
  topology := t
  cpus := m.cpus
  polls := h.polls
  version_ne := h.version
  arranged := (Topology.numbers_of_yields h.yields_ofDevices.choose_spec).1
  numbers := (Topology.numbers_of_yields h.yields_ofDevices.choose_spec).2

/-- The device of a tile is one that the scan found. -/
theorem exists_found {x : Tile} (hx : x ∈ t.tiles) : ∃ f ∈ m.found, f.handle = x.handle := by
  obtain ⟨es, hy⟩ := h.yields_ofDevices
  obtain ⟨tiles, words, ids, ht, ha, -, hw⟩ := Topology.yields_ofDevices hy
  have hl : ids.length = tiles.length := by rw [ha.length_ids, List.length_map]
  have hmem : Topology.device x ∈ (Topology.withIds tiles ids).map Topology.device :=
    List.mem_map_of_mem (hw ▸ hx)
  rw [Topology.withIds_device tiles ids hl, (Topology.arrange_ok ht).2.2.2, Topology.device_tilesFrom] at hmem
  obtain ⟨f, hf, he⟩ := List.mem_map.mp hmem
  exact ⟨f, (Topology.byBus_perm _).mem_iff.mp hf, congrArg Prod.fst he⟩

theorem serving : h.site.Serving m := by
  have htile : ∀ x ∈ t.tiles, ∃ s, m.behind x.handle = some s ∧ s ∈ m.sockets := by
    intro x hx
    obtain ⟨f, hf, he⟩ := h.exists_found hx
    have hlt := h.found f hf
    rw [he] at hlt
    obtain ⟨hb, hs⟩ := h.devices _ (List.getElem_mem hlt)
    exact ⟨_, State.behind_eq_some.mpr ⟨_, ⟨List.getElem?_eq_getElem hlt, hb, hs⟩,
      List.getElem?_eq_getElem hs⟩, List.getElem_mem hs⟩
  refine ⟨h.lock, h.privileged, fun x hx => ?_, fun p hp x hx => ?_⟩
  · obtain ⟨s, hs, hm⟩ := htile x hx
    exact ⟨s, hs, h.firmware s hm⟩
  · obtain ⟨s, hs, -⟩ := htile x (Topology.mailboxTile_mem hx)
    exact ⟨s, hs, h.boost p hp x s hx hs⟩

/-- The machine is learned at the first attempt. -/
theorem run_learn (s : Session) (hs : s.config = c) : ∃ firmware m',
    World.run machine s.learn ⟨m, {}⟩ =
      (.ok ⟨m.processor, t, m.cpus, ⟨firmware, v⟩⟩, ⟨m', {}⟩) ∧ h.site.Serving m' := by
  obtain ⟨m₁, hdisc, hidle⟩ := h.run_ofDevices
  obtain ⟨r, m₂, hneg, ⟨firmware, rfl⟩, hserv⟩ := Site.Serves.negotiate h.site
    (show ({} : Memory).disabled = false from rfl) m₁ (h.serving.idle hidle)
  have hneg' : World.run machine (s.negotiate t) ⟨m₁, {}⟩ = (.ok ⟨firmware, v⟩, ⟨m₂, {}⟩) := by
    have hfirm : World.Runs machine (Capabilities.negotiate s.config t) ⟨m₁, {}⟩
        (World.transcript machine (Capabilities.negotiate s.config t) ⟨m₁, {}⟩)
        (.ok ⟨firmware, v⟩) ⟨m₂, {}⟩ := ⟨by rw [hs]; exact hneg, rfl⟩
    exact (Session.runs_negotiate.mpr ⟨_, _, hfirm, Or.inr ⟨fun e he => (by cases he), rfl, rfl⟩⟩).run
  refine ⟨firmware, m₂, ?_, hserv⟩
  refine (World.run_bind_ok (a := m.processor) (u := ⟨m, {}⟩) rfl).trans ?_
  refine (World.run_bind_ok (a := ()) (u := ⟨m, {}⟩) ?_).trans ?_
  · rw [h.processor]
    rfl
  refine (World.run_bind_ok (a := m.found) (u := ⟨(machine.devices m).2, {}⟩) rfl).trans ?_
  refine (World.run_bind_ok hdisc).trans ?_
  refine (World.run_bind_ok (a := m.cpus) (u := ⟨m₁, {}⟩) ?_).trans ?_
  · show (Except.ok m₁.cpus, _) = _
    rw [hidle.cpus]
  exact World.run_bind_ok hneg'

end Healthy

/-! ## At the gate -/

namespace Site

variable (S : Site)

/-- In such a memory there is an inventory, and no reason not to use it. -/
structure Knows (inv : Inventory) (mem : Memory) : Prop where
  working : mem.disabled = false
  inventory : mem.inventory = some inv

/-- The gate opens on this inventory, at a machine that serves. -/
def Door (s : Session) (inv : Inventory) (w : World State) : Prop :=
  ∀ m?, ∃ m' mem', World.run machine (s.gate m?) w = (Session.letPass m? inv, ⟨m', mem'⟩) ∧
    Knows inv mem' ∧ S.Serving m'

variable {S} {s : Session} {inv : Inventory}

theorem run_gate_known {m : State} {mem : Memory} (hm : S.Serving m) (hk : Knows inv mem)
    (m? : Option MessageId) :
    World.run machine (s.gate m?) ⟨m, mem⟩ = (Session.letPass m? inv, ⟨m, mem⟩) := by
  have h := World.runs machine (s.gate m?) ⟨m, mem⟩
  rcases hr : World.run machine (s.gate m?) ⟨m, mem⟩ with ⟨r, u⟩
  rw [hr] at h
  generalize World.transcript machine (s.gate m?) ⟨m, mem⟩ = es at h
  cases Session.runs_gate h with
  | denied hp => cases hp.symm.trans hm.privileged
  | disabled _ hd => cases hd.symm.trans hk.working
  | known _ _ hi => cases hi.symm.trans hk.inventory; rfl
  | learned _ _ hn => cases hn.symm.trans hk.inventory
  | failed _ _ hn => cases hn.symm.trans hk.inventory

theorem door_known {m : State} {mem : Memory} (hm : S.Serving m) (hk : Knows inv mem) :
    S.Door s inv ⟨m, mem⟩ :=
  fun m? => ⟨m, mem, run_gate_known hm hk m?, hk, hm⟩

end Site

/-- A new process at a machine in good health is at the door. -/
theorem Healthy.door {c : Config} {v : UInt32} {t : Topology} {m : State} (h : Healthy c v t m)
    {s : Session} (hs : s.config = c) : ∃ firmware,
      h.site.Door s ⟨m.processor, t, m.cpus, ⟨firmware, v⟩⟩ ⟨m, {}⟩ := by
  obtain ⟨firmware, m', hlearn, hserv⟩ := h.run_learn s hs
  refine ⟨firmware, fun m? => ?_⟩
  have hg := World.runs machine (s.gate m?) ⟨m, {}⟩
  rcases hr : World.run machine (s.gate m?) ⟨m, {}⟩ with ⟨r, u⟩
  rw [hr] at hg
  generalize World.transcript machine (s.gate m?) ⟨m, {}⟩ = es at hg
  cases Session.runs_gate hg with
  | denied hp => cases hp.symm.trans h.privileged
  | disabled _ hd => cases hd
  | known _ _ hi => cases hi
  | learned _ _ _ hl =>
    cases hl.run.symm.trans hlearn
    exact ⟨m', _, rfl, ⟨rfl, rfl⟩, hserv⟩
  | failed _ _ _ hl => cases hl.run.symm.trans hlearn

end Simulation

end FirmwareMailbox
