/-
  FirmwareMailbox.Proofs.Simulation.Looking — discovery on a simulated machine, by itself.

  Discovery does nothing but write a bus number register's index to a device and read that register
  (`looks_ofDevices`), and it always wants the same register of the same device (`Asks.unique`). So what it
  ends in is settled by the ports of the machine (`Looks.run`), whatever its index registers hold.
-/

import FirmwareMailbox.Proofs.Simulation.Windows
import FirmwareMailbox.Proofs.Topology.Lookup

namespace FirmwareMailbox

namespace Simulation

/-- The register that discovery of these devices looks at through one of them. -/
def Asks (devices : List PciDevice) (h : DeviceHandle) (a : UInt32) : Prop :=
  ∃ tiles, Topology.arrange devices = .ok tiles ∧ ∃ x ∈ tiles, x.handle = h ∧
    a = Register.busNumber (x.index % Register.tilesPerSocket)

theorem Asks.unique {devices : List PciDevice}
    (hd : ∀ a ∈ devices, ∀ b ∈ devices, a.handle = b.handle → a.address.bus = b.address.bus)
    {h : DeviceHandle} {a b : UInt32} (ha : Asks devices h a) (hb : Asks devices h b) : a = b := by
  obtain ⟨tiles, ht, x, hx, hxh, rfl⟩ := ha
  obtain ⟨tiles', ht', y, hy, hyh, rfl⟩ := hb
  rw [ht] at ht'
  cases ht'
  rw [Topology.index_of_handle hd ht hx hy (hxh.trans hyh.symm)]

section

variable {α β : Type} {m : State} {devices : List PciDevice}

/-- A program that does nothing but look at the registers of discovery, and finds there what is on `m`,
    ends in this. -/
inductive Looks (m : State) (devices : List PciDevice) {α : Type} : Program α → α → Prop
  | done (r : α) : Looks m devices (.done r) r
  | absent {h : DeviceHandle} {a : UInt32} {e : Error} {next : Except Error Unit → Program α} {r : α} :
      Asks devices h a → m.opens h = .error e → Looks m devices (next (.error e)) r →
      Looks m devices (.ask (.write h Register.smnIndex a) next) r
  | look {h : DeviceHandle} {a : UInt32} {next : Except Error Unit → Program α}
      {after : Except Error UInt32 → Program α} {r : α} :
      Asks devices h a → m.opens h = .ok () → next (.ok ()) = .ask (.read h Register.smnData) after →
      Looks m devices (after (m.word h a)) r →
      Looks m devices (.ask (.write h Register.smnIndex a) next) r

theorem Looks.bind {p : Program α} {f : α → Program β} {a : α} {b : β} (hp : Looks m devices p a)
    (hf : Looks m devices (f a) b) : Looks m devices (p.bind f) b := by
  induction hp with
  | done r => exact hf
  | absent ha ho _ ih => exact .absent ha ho (ih hf)
  | @look h a next after r ha ho hn _ ih =>
    have hnext : (next (.ok ())).bind f = .ask (.read h Register.smnData) fun x => (after x).bind f := by
      rw [hn]
      rfl
    exact .look ha ho hnext (ih hf)

theorem Looks.closed (m : State) (devices : List PciDevice) :
    Program.Closed fun p => ∃ r, Looks m devices p r where
  done r := ⟨r, .done r⟩
  bind hp hf := by
    obtain ⟨a, ha⟩ := hp
    obtain ⟨b, hb⟩ := hf a
    exact ⟨b, ha.bind hb⟩

/-- Discovery is such a program. -/
theorem looks_ofDevices (m : State) (devices : List PciDevice) :
    ∃ r, Looks m devices (Topology.ofDevices devices).run r := by
  refine (Looks.closed m devices).ofDevices devices fun tiles ht x hx => ?_
  have ha : Asks devices x.handle (Register.busNumber (x.index % Register.tilesPerSocket)) :=
    ⟨tiles, ht, x, hx, rfl, rfl⟩
  cases ho : m.opens x.handle with
  | error e => exact ⟨_, .absent ha ho (.done _)⟩
  | ok _ => exact ⟨_, .look ha ho rfl (.done _)⟩

variable {m' : State} {h : DeviceHandle} {a : UInt32}

/-- A device of a machine with these ports takes an index, or does not, as the device of `m`, and the ports
    stay what they are. -/
theorem write_of_ports (hm : m'.ports = m.ports) (h : DeviceHandle) (a : UInt32) :
    (m'.write h Register.smnIndex a).1 = m.opens h ∧ (m'.write h Register.smnIndex a).2.ports = m.ports := by
  obtain ⟨hreply, hplain, -⟩ := write_smnIndex_eq m' h a
  rw [opens_of_ports hm] at hreply
  exact ⟨hreply, by rw [← plain_ports, hplain, plain_ports, hm]⟩

/-- An index that was taken is there. -/
theorem names_written (hm : m'.ports = m.ports) (ho : m.opens h = .ok ()) (a : UInt32) :
    (m'.write h Register.smnIndex a).2.Names h a := by
  intro i hi
  rw [(write_smnIndex_eq m' h a).2.2, opens_of_ports hm, if_pos (And.intro rfl ho)] at hi
  exact (Option.some.inj hi).symm

/-- Whoever writes an index writes the one that is right for that device. -/
theorem Asks.names_written
    (hd : ∀ a ∈ devices, ∀ b ∈ devices, a.handle = b.handle → a.address.bus = b.address.bus)
    {g : DeviceHandle} {b : UInt32} (ha : Asks devices h a) (hb : Asks devices g b) (hn : m.Names g b) :
    (m.write h Register.smnIndex a).2.Names g b := by
  intro i hi
  rw [(write_smnIndex_eq m h a).2.2] at hi
  by_cases hg : g = h ∧ m.opens h = .ok ()
  · rw [if_pos hg] at hi
    obtain ⟨rfl, -⟩ := hg
    rw [← Option.some.inj hi]
    exact ha.unique hd hb
  · rw [if_neg hg] at hi
    exact hn i hi

/-- Where the index is right, discovery finds what it would find on `m`. -/
theorem read_of_ports (hm : m'.ports = m.ports) (ha : Asks devices h a)
    (hi : m'.Names h a) : m'.read h Register.smnData = (m.word h a, m') := by
  obtain ⟨tiles, -, x, -, -, hk⟩ := ha
  rw [read_smnData_eq (hk ▸ busNumber_ne_status _) hi, hk, word_of_ports hm]

/-- By itself it ends in that on every machine with these ports. -/
theorem Looks.run {p : Program α} {r : α} (hp : Looks m devices p r) {w : World State}
    (hw : w.machine.ports = m.ports) : (Program.run (World.answer machine) p w).1 = r := by
  induction hp generalizing w with
  | done r => rfl
  | @absent h a e next r _ ho _ ih =>
    obtain ⟨hreply, hports⟩ := write_of_ports hw h a
    show (Program.run _ (next (w.machine.write h Register.smnIndex a).1) _).1 = r
    rw [hreply, ho]
    exact ih hports
  | @look h a next after r ha ho hn _ ih =>
    obtain ⟨hreply, hports⟩ := write_of_ports hw h a
    have hread := read_of_ports hports ha (names_written hw ho a)
    show (Program.run _ (next (w.machine.write h Register.smnIndex a).1) _).1 = r
    rw [hreply, ho, hn]
    show (Program.run _ (after ((w.machine.write h Register.smnIndex a).2.read h Register.smnData).1)
      (⟨((w.machine.write h Register.smnIndex a).2.read h Register.smnData).2, w.memory⟩ : World State)).1 = r
    rw [hread]
    exact ih hports

end

end Simulation

end FirmwareMailbox
