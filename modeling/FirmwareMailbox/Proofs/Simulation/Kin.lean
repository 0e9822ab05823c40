/-
  FirmwareMailbox.Proofs.Simulation.Kin — machines that look the same.

  Machines are kin if their devices are wired the same and their sockets look the same but for their
  mailboxes (`State.Kin`). What a view hides leaves a machine kin to what it was (`Keeping`), and what a view
  shows goes the same way on kin machines and leaves them kin (`Concurs`). A mailbox can only tell more than
  the view if its firmware claims to have answered where it did not, so those that are spoken to have
  to be honest.
-/

import FirmwareMailbox.Proofs.Simulation.Views

namespace FirmwareMailbox.Simulation

variable {ν : Firmware → Firmware} {c : Config} {m m' m'' : State} {H : DeviceHandle → Prop}

/-- The devices are wired the same, and the sockets look the same but for their mailboxes. -/
abbrev State.Kin (ν : Firmware → Firmware) (m m' : State) : Prop := State.Matched (fun _ => Socket.Kin ν) m m'

/-- No socket that has one of these devices claims to have answered where it did not. -/
def State.Honest (H : DeviceHandle → Prop) (m : State) : Prop :=
  ∀ h d s, H h → m.Has h d → m.sockets[d.socket]? = some s → s.Honest

namespace State

theorem Idle.kin (h : m.Idle m') : m.Kin ν m' where
  count := by rw [h.sockets]
  sockets i s s' hs hs' := by
    rw [h.sockets, hs] at hs'
    cases hs'
    exact .refl s
  devices := h.devices.symm
  found := h.found.symm
  cpus := h.cpus.symm
  privileged := h.privileged.symm
  processor := h.processor.symm

theorem Kin.refl (m : State) : m.Kin ν m := (Idle.refl m).kin

theorem Kin.symm (h : m.Kin ν m') : m'.Kin ν m where
  count := h.count.symm
  sockets i s s' hs hs' := (h.sockets i s' s hs' hs).symm
  devices := h.devices.symm
  found := h.found.symm
  cpus := h.cpus.symm
  privileged := h.privileged.symm
  processor := h.processor.symm

theorem Kin.trans (h : m.Kin ν m') (h' : m'.Kin ν m'') : m.Kin ν m'' where
  count := h.count.trans h'.count
  sockets i s s'' hs hs'' := by
    have hlt : i < m'.sockets.length := by
      rw [← h.count]
      exact (List.getElem?_eq_some_iff.mp hs).1
    have hs' := List.getElem?_eq_getElem hlt
    exact (h.sockets i s _ hs hs').trans (h'.sockets i _ s'' hs' hs'')
  devices := h.devices.trans h'.devices
  found := h.found.trans h'.found
  cpus := h.cpus.trans h'.cpus
  privileged := h.privileged.trans h'.privileged
  processor := h.processor.trans h'.processor

/-- What looks the same but for the records has the same core. -/
theorem Kin.core (h : m.Kin Firmware.unrecorded m') : m.Kin Firmware.core m' :=
  { h with
    sockets := fun i s s' hs hs' =>
      ⟨(h.sockets i s s' hs hs').registers, (congrArg Firmware.core (h.sockets i s s' hs hs').firmware :)⟩ }

theorem Kin.honest (hν : Firmware.View ν) (h : m.Kin ν m') (hm : m.Honest H) : m'.Honest H := by
  intro k d' s' hk hd' hs'
  rcases h.device k with ⟨-, hno⟩ | ⟨d, d₁, s, s₁, hd, hd₁, -, hs, hs₁, hkin⟩
  · exact absurd hd' (hno d')
  · obtain rfl : d₁ = d' := Option.some.inj (hd₁.device.symm.trans hd'.device)
    obtain rfl : s₁ = s' := Option.some.inj (hs₁.symm.trans hs')
    exact hkin.honest hν (hm k d s hk hd hs)

end State

/-! ## What a view hides -/

/-- If the lock was to be had, it still is, and the machine looks the same. -/
def Keeping (ν : Firmware → Firmware) (c : Config) (w : World State) (_ : List Event) (w' : World State) : Prop :=
  Lockable c w.machine → Lockable c w'.machine ∧ w.machine.Kin ν w'.machine

namespace Keeping

theorem composes : World.Composes (Keeping ν c) where
  refl w hl := ⟨hl, .refl w.machine⟩
  trans h h' hl := by
    obtain ⟨hl', hk⟩ := h hl
    obtain ⟨hl'', hk'⟩ := h' hl'
    exact ⟨hl'', hk.trans hk'⟩

theorem exchange (hν : Firmware.View ν) (d : DeviceHandle) {msg : Message} (hm : msg.Fits)
    (hid : Firmware.Hides ν msg.id) (highest : Option MessageId) :
    World.Conducts machine (Keeping ν c) (msg.exchange c d highest).run := by
  refine .of_runs fun ⟨m, mem⟩ es r w' h hl => ?_
  obtain ⟨hargs, hresp⟩ := hm.sizes
  cases hdis : mem.disabled with
  | true =>
    cases h.run.symm.trans (run_exchange_disabled highest m d hdis hargs hresp)
    exact ⟨hl, .refl m⟩
  | false =>
    by_cases hd : ∃ x, m.Has d x
    · obtain ⟨x, hx⟩ := hd
      obtain ⟨sk, hs⟩ : ∃ sk, m.sockets[x.socket]? = some sk := ⟨_, List.getElem?_eq_getElem hx.socket⟩
      obtain ⟨i, hr⟩ := run_exchange highest hx hs hl hdis hargs hresp
      cases h.run.symm.trans hr
      refine ⟨Lockable.touched (m := m.facing d x i _) hl, ?_⟩
      have hfacing := (State.Kin.refl (ν := ν) m).facing (c := c) hx hx rfl x.hsmpIndex i
        (Socket.exchange_kin hν hm hid highest c.polls sk)
      rw [State.facing_self hx hs] at hfacing
      exact { hfacing with }
    · obtain ⟨u, hr, hidle⟩ := run_exchange_absent highest (fun x hx => hd ⟨x, hx⟩) hl hdis hargs hresp
      cases h.run.symm.trans hr
      exact ⟨(hl.idle hidle).touched, { hidle.kin with }⟩

theorem negotiate (hν : Firmware.View ν) (hid : ∀ id ∈ Capabilities.probes, Firmware.Hides ν id) (t : Topology) :
    World.Conducts machine (Keeping ν c) (Capabilities.negotiate c t).run :=
  (World.Conducts.closed composes).negotiation c t fun _ _ _ _ hm hp => exchange hν _ hm (hid _ hp) _

end Keeping

/-! ## What a view shows -/

/-- Two processes that have both given up or neither, on machines that look the same, where the lock is to be
    had and these devices have honest sockets. -/
structure Paired (ν : Firmware → Firmware) (H : DeviceHandle → Prop) (c : Config) (w w' : World State) :
    Prop where
  machine : w.machine.Kin ν w'.machine
  lock : Lockable c w.machine ∧ Lockable c w'.machine
  honest : w.machine.Honest H
  disabled : w.memory.disabled = w'.memory.disabled

/-- The program ends the same in both processes and leaves them paired. -/
abbrev Concurs {α : Type} (ν : Firmware → Firmware) (H : DeviceHandle → Prop) (c : Config) (p : Program α) : Prop :=
  World.Parallel machine (Paired ν H c) p

namespace Concurs

theorem closed : Program.Closed fun p => Concurs ν H c p := World.Parallel.closed

/-- Questions to the system. -/
theorem request {q : Request} (hq : q = .processor ∨ q = .devices ∨ q = .cpus ∨ q = .disable) :
    Concurs ν H c (Program.request q) := by
  rintro ⟨m, mem⟩ ⟨m', mem'⟩ ⟨hm, hl, hh, hd⟩
  rcases hq with rfl | rfl | rfl | rfl
  · exact ⟨hm.processor, hm, hl, hh, hd⟩
  · exact ⟨congrArg Except.ok hm.found, { hm with }, hl,
      fun k d s hk hx hs => hh k d s hk ⟨hx.device, hx.works, hx.socket⟩ hs, hd⟩
  · exact ⟨congrArg Except.ok hm.cpus, hm, hl, hh, hd⟩
  · exact ⟨rfl, hm, hl, hh, rfl⟩

theorem ofDevices (hν : Firmware.View ν) (devices : List PciDevice) :
    Concurs ν H c (Topology.ofDevices devices).run := by
  refine closed.ofDevices devices fun _ _ x _ => .of_runs fun w w' h => ?_
  obtain ⟨m, hr, hi⟩ := run_smn_read w.machine x.handle (busNumber_ne_status _) w.memory
  obtain ⟨m', hr', hi'⟩ := run_smn_read w'.machine x.handle (busNumber_ne_status _) w'.memory
  rw [← h.machine.word x.handle fun _ _ _ hs => hs.registers _ (busNumber_outside _)] at hr'
  exact ⟨_, _, _, hr, hr', h.machine.idle hi hi', ⟨h.lock.1.idle hi, h.lock.2.idle hi'⟩,
    State.Kin.honest hν hi.kin h.honest, h.disabled⟩

theorem exchange (hν : Firmware.View ν) {d : DeviceHandle} (hd : H d) {msg : Message} (hm : msg.Fits)
    (hid : Firmware.Shows ν msg.id) (highest : Option MessageId) :
    Concurs ν H c (msg.exchange c d highest).run := by
  refine .of_runs fun ⟨m, mem⟩ ⟨m', mem'⟩ ⟨hk, hl, hh, hdis⟩ => ?_
  obtain ⟨r, u, u', hr, hr', hu, hlock, hd', -, -⟩ := hk.run_exchange hl.1 hl.2 hdis d hm highest
    fun x s s' hx hs hkin => hkin.exchange hν hm hid (hh d x s hd hx hs) highest c.polls
  refine ⟨r, u, u', hr, hr', hu, hlock, ?_, hd'⟩
  -- No message changes whether the firmware is honest, though it may change what is seen of it.
  have hcore := (Keeping.exchange Firmware.core_view d hm (Firmware.core_hides msg.id) highest).runs ⟨hr, rfl⟩
  exact State.Kin.honest Firmware.core_view (hcore hl.1).2 hh

theorem survey (hν : Firmware.View ν) : Concurs ν H c Session.survey.run :=
  Session.survey_closed closed (fun q hq => request (by tauto)) (ofDevices hν)

theorem negotiate (hν : Firmware.View ν) (hid : ∀ id ∈ Capabilities.probes, Firmware.Shows ν id) {t : Topology}
    (ht : ∀ n tile, t.mailboxTile n = .ok tile → H tile.handle) :
    Concurs ν H c (Capabilities.negotiate c t).run :=
  closed.negotiation c t fun n tile htile _ hm hp => exchange hν (ht n tile htile) hm (hid _ hp) none

end Concurs

end FirmwareMailbox.Simulation
