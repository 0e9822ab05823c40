/-
  FirmwareMailbox.Proofs.Simulation.Exchange — what the driver's accesses do to a simulated machine.

  An exchange through a device that works is one step of the socket behind it (`run_exchange`), and
  what the step ends in is the firmware's answer (`Socket.exchange_ok`, ...). Through a device that
  does not work it fails. A look at a bus number register reads a word that is there. Failing and
  looking change nothing but index registers (`State.Idle`).
-/

import FirmwareMailbox.Proofs.Machine.Requests
import FirmwareMailbox.Proofs.Simulation.Mailbox
import FirmwareMailbox.Proofs.Storage.Lock
import FirmwareMailbox.Topology.Discovery

namespace FirmwareMailbox.Simulation

/-- What a device is apart from its index registers. -/
def Device.wiring (d : Device) : Nat × Bool := (d.socket, d.broken)

/-- The machine is as before, but for index registers and the number of scans. -/
structure State.Idle (m m' : State) : Prop where
  sockets : m'.sockets = m.sockets
  devices : m'.devices.map Device.wiring = m.devices.map Device.wiring
  found : m'.found = m.found
  cpus : m'.cpus = m.cpus
  privileged : m'.privileged = m.privileged
  processor : m'.processor = m.processor
  storage : m'.storage = m.storage

variable {m : State} {h : DeviceHandle} {d : Device} {mem : Memory}

namespace State

theorem Idle.refl (m : State) : m.Idle m := ⟨rfl, rfl, rfl, rfl, rfl, rfl, rfl⟩

theorem Idle.trans {m m' m'' : State} (h : m.Idle m') (h' : m'.Idle m'') : m.Idle m'' :=
  ⟨h'.sockets.trans h.sockets, h'.devices.trans h.devices, h'.found.trans h.found,
    h'.cpus.trans h.cpus, h'.privileged.trans h.privileged, h'.processor.trans h.processor,
    h'.storage.trans h.storage⟩

theorem Idle.symm {m m' : State} (h : m.Idle m') : m'.Idle m :=
  ⟨h.sockets.symm, h.devices.symm, h.found.symm, h.cpus.symm, h.privileged.symm, h.processor.symm,
    h.storage.symm⟩

/-- Another entry that shows the same in its place. -/
theorem map_set_same {α β : Type} {f : α → β} {xs : List α} {i : Nat} {x y : α} (hx : xs[i]? = some x)
    (hf : f y = f x) : (xs.set i y).map f = xs.map f := by
  rw [List.map_set, hf]
  obtain ⟨hlt, rfl⟩ := List.getElem?_eq_some_iff.mp hx
  rw [← List.getElem_map f (h := by simpa using hlt), List.set_getElem_self]

/-- A device with another index is wired as before. -/
theorem map_wiring_set {devices : List Device} (d' : Device) (hd : devices[h]? = some d)
    (hw : d'.wiring = d.wiring) : (devices.set h d').map Device.wiring = devices.map Device.wiring :=
  map_set_same hd hw

/-- Wiring decides whether a device works, and which socket it has. -/
theorem Has.of_wiring {m' : State} (hm : m.Has h d) (hc : m.sockets.length = m'.sockets.length)
    (hw : m.devices.map Device.wiring = m'.devices.map Device.wiring) :
    ∃ d', m'.Has h d' ∧ d'.socket = d.socket := by
  have hh : (m.devices[h]?).map Device.wiring = (m'.devices[h]?).map Device.wiring := by
    rw [← List.getElem?_map, ← List.getElem?_map, hw]
  rw [hm.device] at hh
  obtain ⟨d', hd', he⟩ := Option.map_eq_some_iff.mp hh.symm
  obtain ⟨hsock, hbroken⟩ := Prod.mk.inj he
  exact ⟨d', ⟨hd', hbroken.trans hm.works, by rw [hsock, ← hc]; exact hm.socket⟩, hsock⟩

theorem idle_devices (d' : Device) (hd : m.devices[h]? = some d) (hw : d'.wiring = d.wiring) :
    m.Idle { m with devices := m.devices.set h d' } :=
  { Idle.refl m with devices := map_wiring_set d' hd hw }

/-- The word at a register behind a device. -/
def word (m : State) (h : DeviceHandle) (a : UInt32) : Except Error UInt32 :=
  match m.devices[h]? with
  | none => .error (.bus .deviceRemoved)
  | some d =>
    if d.broken then .error (.bus .deviceRemoved)
    else
      match m.sockets[d.socket]? with
      | none => .error (.bus .deviceRemoved)
      | some s => .ok (s.registers.get a)

/-- A device that has no socket, does not work or is not there. -/
theorem word_error (hn : ∀ d, ¬ m.Has h d) (a : UInt32) : m.word h a = .error (.bus .deviceRemoved) := by
  unfold word
  split
  · rfl
  · rename_i d hd
    split
    · rfl
    · rename_i hb
      split
      · rfl
      · rename_i s hs
        exact absurd ⟨hd, by simpa using hb, (List.getElem?_eq_some_iff.mp hs).1⟩ (hn d)

end State

/-- Writing an index register changes nothing else, and fails at a device that is not there or does
    not work. -/
theorem write_index_idle (m : State) (h : DeviceHandle) {o : UInt32}
    (ho : o = Register.smnIndex ∨ o = Register.hsmpIndex) (a : UInt32) :
    (∃ m', State.write h o a m = (.ok (), m') ∧ m.Idle m' ∧
      ∃ d d', m.devices[h]? = some d ∧ d.broken = false ∧ m'.devices[h]? = some d' ∧
        d'.wiring = d.wiring ∧ (if o = Register.smnIndex then d'.smnIndex else d'.hsmpIndex) = a) ∨
      State.write h o a m = (.error (.bus .deviceRemoved), m) ∧ ∀ d, ¬ m.Has h d := by
  cases hd : m.devices[h]? with
  | none =>
    refine Or.inr ⟨by simp only [State.write, hd], fun d hm => ?_⟩
    rw [hm.device] at hd
    cases hd
  | some d =>
    cases hb : d.broken with
    | true =>
      refine Or.inr ⟨by simp only [State.write, hd, hb, if_true], fun d' hm => ?_⟩
      rw [hm.device] at hd
      cases hd
      rw [hm.works] at hb
      cases hb
    | false =>
      have hlt := (List.getElem?_eq_some_iff.mp hd).1
      left
      rcases ho with rfl | rfl
      · refine ⟨_, by simp only [State.write, hd, hb, Bool.false_eq_true, if_false, if_true],
          State.idle_devices { d with smnIndex := a } hd rfl, d, _, rfl, hb,
          List.getElem?_set_self hlt, rfl, if_pos rfl⟩
      · have hne : ¬ Register.hsmpIndex = Register.smnIndex := by decide
        refine ⟨_, by simp only [State.write, hd, hb, Bool.false_eq_true, if_false, if_true, if_neg hne],
          State.idle_devices { d with hsmpIndex := a } hd rfl, d, _, rfl, hb,
          List.getElem?_set_self hlt, rfl, if_neg hne⟩

/-- A look at a register that is not the status finds the word that is there. -/
theorem run_smn_read (m : State) (h : DeviceHandle) {a : UInt32} (ha : a ≠ Register.status) (mem : Memory) :
    ∃ m', World.run machine (Aperture.smn.read h a) ⟨m, mem⟩ = (m.word h a, ⟨m', mem⟩) ∧ m.Idle m' := by
  rcases write_index_idle m h (Or.inl rfl) a with
    ⟨m', hw, hidle, d, d', hd, hb, hd', hwire, hi⟩ | ⟨hw, hn⟩
  · refine ⟨m', ?_, hidle⟩
    obtain ⟨hsock, hbroken⟩ := Prod.mk.inj hwire
    refine (World.run_bind_ok (run_write hw)).trans (run_read ?_)
    rw [if_pos rfl] at hi
    have hdata : State.read h Register.smnData m' = m'.readRegister d' a := by
      simp only [State.read, hd', hbroken, hb, Bool.false_eq_true, if_false, if_true, hi]
      exact if_neg (by decide)
    show State.read h Register.smnData m' = _
    rw [hdata, State.readRegister, hsock, State.word, hd]
    simp only [hb, Bool.false_eq_true, if_false, hidle.sockets]
    cases hs : m.sockets[d.socket]? with
    | none => rfl
    | some s =>
      obtain ⟨hlt, rfl⟩ := List.getElem?_eq_some_iff.mp hs
      simp only [Socket.read_of_ne ha, List.set_getElem_self, ← hidle.sockets]
  · refine ⟨m, ?_, .refl m⟩
    rw [State.word_error hn]
    exact World.run_bind_error (run_write hw)

/-- Nothing gets through a device that does not work. -/
theorem run_hsmp_write_absent (hn : ∀ d, ¬ m.Has h d) (a v : UInt32) (mem : Memory) :
    ∃ m', World.run machine (Aperture.hsmp.write h a v) ⟨m, mem⟩ =
      (.error (.bus .deviceRemoved), ⟨m', mem⟩) ∧ m.Idle m' := by
  rcases write_index_idle m h (Or.inr rfl) a with
    ⟨m', hw, hidle, d, d', hd, hb, hd', hwire, -⟩ | ⟨hw, -⟩
  · refine ⟨m', (World.run_bind_ok (run_write hw)).trans (run_write ?_), hidle⟩
    obtain ⟨hsock, hbroken⟩ := Prod.mk.inj hwire
    have hs : m'.sockets[d'.socket]? = none := by
      rw [hsock, hidle.sockets, List.getElem?_eq_none_iff]
      exact Nat.le_of_not_lt fun hlt => hn d ⟨hd, hb, hlt⟩
    show State.write h Register.hsmpData v m' = _
    simp only [State.write, hd', hbroken, hb, Bool.false_eq_true, if_false, if_true, State.writeRegister, hs]
    rw [if_neg (by decide), if_neg (by decide), if_neg (by decide)]
  · exact ⟨m, World.run_bind_error (run_write hw), .refl m⟩

/-! ## An exchange -/

/-- The lock of this configuration is to be had. -/
def Lockable (c : Config) (m : State) : Prop := (m.storage.lock c.lockPath).1 = .ok ()

/-- The machine after somebody had the lock. -/
def State.touched (c : Config) (m : State) : State := { m with storage := m.storage.touch c.lockPath }

theorem Lockable.touched {c : Config} (h : Lockable c m) : Lockable c (m.touched c) := Storage.lock_touch h

theorem Lockable.idle {c : Config} {m' : State} (h : Lockable c m) (hi : m.Idle m') : Lockable c m' := by
  unfold Lockable at h ⊢
  rwa [hi.storage]

variable {c : Config} {msg : Message} (highest : Option MessageId)

/-- A message that fits the slots is sent under the lock, unless the process gave up. -/
theorem run_exchange_eq (m : State) (h : DeviceHandle) (mem : Memory)
    (ha : msg.args.length ≤ Register.slotCount) (hr : msg.responseLength ≤ Register.slotCount) :
    World.run machine (msg.exchange c h highest) ⟨m, mem⟩ =
      World.run machine (if mem.disabled then throw (.unsupported .disabled)
        else Job.locked c.lockPath (msg.converse c h highest)) ⟨m, mem⟩ := by
  have hsize : msg.checkSize = .ok () := if_neg (by omega)
  have h1 : World.run machine (liftM msg.checkSize : Job Unit) ⟨m, mem⟩ = (.ok (), ⟨m, mem⟩) := by
    rw [hsize]
    rfl
  have h2 : World.run machine (Job.ask .isDisabled) ⟨m, mem⟩ = (.ok mem.disabled, ⟨m, mem⟩) := rfl
  refine (World.run_bind_ok h1).trans ((World.run_bind_ok h2).trans ?_)
  cases mem.disabled <;> rfl

/-- A process that gave up does not go near the machine. -/
theorem run_exchange_disabled (m : State) (h : DeviceHandle) (hmem : mem.disabled = true)
    (ha : msg.args.length ≤ Register.slotCount) (hr : msg.responseLength ≤ Register.slotCount) :
    World.run machine (msg.exchange c h highest) ⟨m, mem⟩ =
      (.error (.unsupported .disabled), ⟨m, mem⟩) := by
  rw [run_exchange_eq highest m h mem ha hr, hmem, if_pos rfl]
  rfl

/-- One that did not converses under the lock. -/
theorem run_exchange_locked {r : Except Error (List UInt32)} {u : World State} (hl : Lockable c m)
    (hmem : mem.disabled = false) (ha : msg.args.length ≤ Register.slotCount)
    (hr : msg.responseLength ≤ Register.slotCount)
    (hc : World.run machine (msg.converse c h highest)
      ⟨{ m with storage := (m.storage.lock c.lockPath).2 }, mem⟩ = (r, u)) :
    World.run machine (msg.exchange c h highest) ⟨m, mem⟩ =
      (r, { u with machine := { u.machine with storage := u.machine.storage.unlock c.lockPath } }) := by
  have hlock : machine.lock c.lockPath m =
      (.ok (), { m with storage := (m.storage.lock c.lockPath).2 }) := Prod.ext hl rfl
  rw [run_exchange_eq highest m h mem ha hr, hmem, if_neg Bool.false_ne_true]
  exact World.run_locked hlock hc

theorem State.facing_self {s : Socket} (hm : m.Has h d) (hs : m.sockets[d.socket]? = some s) :
    m.facing h d d.hsmpIndex s = m := by
  obtain ⟨hlt, hd⟩ := List.getElem?_eq_some_iff.mp hm.device
  obtain ⟨hlt', rfl⟩ := List.getElem?_eq_some_iff.mp hs
  subst hd
  unfold State.facing
  rw [List.set_getElem_self, List.set_getElem_self]

/-- Through a device that works, an exchange is one step of the socket behind it. -/
theorem run_exchange {s : Socket} (hm : m.Has h d) (hs : m.sockets[d.socket]? = some s) (hl : Lockable c m)
    (hmem : mem.disabled = false) (ha : msg.args.length ≤ Register.slotCount)
    (hr : msg.responseLength ≤ Register.slotCount) :
    ∃ i, World.run machine (msg.exchange c h highest) ⟨m, mem⟩ =
      ((s.exchange msg highest c.polls).1,
        ⟨(m.facing h d i (s.exchange msg highest c.polls).2).touched c,
          mem.waited (s.status msg c.polls)⟩) := by
  have hm' : State.Has { m with storage := (m.storage.lock c.lockPath).2 } h d :=
    ⟨hm.device, hm.works, hm.socket⟩
  obtain ⟨i, hc⟩ := does_converse mem hm' c msg highest s ha hr d.hsmpIndex
  rw [State.facing_self hm' hs] at hc
  exact ⟨i, run_exchange_locked highest hl hmem ha hr hc⟩

/-- Through a device that does not work, it fails. -/
theorem run_exchange_absent (hn : ∀ d, ¬ m.Has h d) (hl : Lockable c m) (hmem : mem.disabled = false)
    (ha : msg.args.length ≤ Register.slotCount) (hr : msg.responseLength ≤ Register.slotCount) :
    ∃ m', World.run machine (msg.exchange c h highest) ⟨m, mem⟩ =
      (.error (.bus .deviceRemoved), ⟨m'.touched c, mem⟩) ∧ m.Idle m' := by
  have hn' : ∀ d, ¬ State.Has { m with storage := (m.storage.lock c.lockPath).2 } h d :=
    fun d hm => hn d ⟨hm.device, hm.works, hm.socket⟩
  obtain ⟨m', hw, hidle⟩ := run_hsmp_write_absent hn' Register.status Status.notReady mem
  refine ⟨{ m' with storage := m.storage }, ?_, { hidle with storage := rfl }⟩
  have hx := run_exchange_locked highest hl hmem ha hr (World.run_bind_error hw)
  rw [hx]
  show (_, (⟨{ m' with storage := m'.storage.unlock c.lockPath }, mem⟩ : World State)) = _
  rw [hidle.storage]
  rfl

/-! ## Discovery -/

theorem busNumber_eq (k : Nat) : ∃ j < 4, Register.busNumber k = Register.busNumber j :=
  ⟨k % 4, Nat.mod_lt k (by decide), by
    simp only [Register.busNumber, Register.tilesPerSocket, Nat.mod_mod]⟩

theorem busNumber_ne_status (k : Nat) : Register.busNumber k ≠ Register.status := by
  have h : ∀ j < 4, Register.busNumber j ≠ Register.status := by decide
  obtain ⟨j, hj, he⟩ := busNumber_eq k
  rw [he]
  exact h j hj

/-- Discovery only looks. -/
theorem conducts_ofDevices (devices : List PciDevice) : World.Conducts machine
    (fun w _ w' => w.machine.Idle w'.machine ∧ w'.memory = w.memory) (Topology.ofDevices devices).run := by
  have hT : World.Composes fun (w : World State) _ w' => w.machine.Idle w'.machine ∧ w'.memory = w.memory :=
    ⟨fun w => ⟨.refl w.machine, rfl⟩, fun h h' => ⟨h.1.trans h'.1, h'.2.trans h.2⟩⟩
  refine (World.Conducts.closed hT).ofDevices devices fun _ _ x _ => .of_runs fun w es r w' h => ?_
  obtain ⟨m', hr, hi⟩ := run_smn_read w.machine x.handle (busNumber_ne_status _) w.memory
  cases h.run.symm.trans hr
  exact ⟨hi, rfl⟩

end FirmwareMailbox.Simulation
