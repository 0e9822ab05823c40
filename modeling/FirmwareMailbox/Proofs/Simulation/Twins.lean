/-
  FirmwareMailbox.Proofs.Simulation.Twins — two processes that cannot tell their machines apart.

  The machines have the same firmware and the same devices; their mailboxes hold whatever earlier
  exchanges left there, and so do the index registers. The processes know the same and have the same
  configuration (`World.Twins`). What they do ends the same on both and leaves them twins: this holds of
  a look at a bus number, of an exchange and of every question to the system, so it holds of every
  operation (`agrees_perform`) and of operations one after the other.
-/

import FirmwareMailbox.Proofs.Session.Knowing
import FirmwareMailbox.Proofs.Simulation.Exchange
import FirmwareMailbox.Proofs.Simulation.Leftovers
import FirmwareMailbox.Proofs.Topology.Buses

namespace FirmwareMailbox

namespace Simulation

variable {c : Config} {old : Nat → Firmware.Log}

/-- Machines with the same devices, wired to sockets that are so related one by one. Index registers may
    hold anything. -/
structure State.Matched (R : Nat → Socket → Socket → Prop) (m m' : State) : Prop where
  count : m.sockets.length = m'.sockets.length
  sockets : ∀ i (s s' : Socket), m.sockets[i]? = some s → m'.sockets[i]? = some s' → R i s s'
  devices : m.devices.map Device.wiring = m'.devices.map Device.wiring
  found : m.found = m'.found
  cpus : m.cpus = m'.cpus
  privileged : m.privileged = m'.privileged
  processor : m.processor = m'.processor

/-- The lock is to be had on both machines, and only what exchanges leave behind tells them apart;
    socket `i` had the log `old i` before. -/
structure State.Alike (c : Config) (old : Nat → Firmware.Log) (m m' : State) : Prop
    extends State.Matched (fun i s s' => s.Alike (old i) s') m m' where
  lock : Lockable c m ∧ Lockable c m'

namespace State

variable {R : Nat → Socket → Socket → Prop} {m m' n n' : State} {h : DeviceHandle} {d d' : Device}

theorem Matched.idle (ha : Matched R m m') (hi : m.Idle n) (hi' : m'.Idle n') : Matched R n n' where
  count := by rw [hi.sockets, hi'.sockets, ha.count]
  sockets := by rw [hi.sockets, hi'.sockets]; exact ha.sockets
  devices := by rw [hi.devices, hi'.devices, ha.devices]
  found := by rw [hi.found, hi'.found, ha.found]
  cpus := by rw [hi.cpus, hi'.cpus, ha.cpus]
  privileged := by rw [hi.privileged, hi'.privileged, ha.privileged]
  processor := by rw [hi.processor, hi'.processor, ha.processor]

/-- A device works on both machines or on neither, and there are related sockets behind it. -/
theorem Matched.device (ha : Matched R m m') (h : DeviceHandle) :
    ((∀ d, ¬ m.Has h d) ∧ ∀ d, ¬ m'.Has h d) ∨
      ∃ d d' s s', m.Has h d ∧ m'.Has h d' ∧ d'.socket = d.socket ∧ m.sockets[d.socket]? = some s ∧
        m'.sockets[d'.socket]? = some s' ∧ R d.socket s s' := by
  by_cases hm : ∃ d, m.Has h d
  · obtain ⟨d, hd⟩ := hm
    obtain ⟨d', hd', hsock⟩ := hd.of_wiring ha.count ha.devices
    have hs := List.getElem?_eq_getElem hd.socket
    have hs' := List.getElem?_eq_getElem hd'.socket
    refine Or.inr ⟨d, d', _, _, hd, hd', hsock, hs, hs', ha.sockets _ _ _ hs ?_⟩
    rw [← hsock]
    exact hs'
  · refine Or.inl ⟨fun d hd => hm ⟨d, hd⟩, fun d' hd' => ?_⟩
    obtain ⟨d, hd, -⟩ := hd'.of_wiring ha.count.symm ha.devices.symm
    exact hm ⟨d, hd⟩

/-- A step of the sockets behind a device that leaves them related leaves the machines matched. -/
theorem Matched.facing (ha : Matched R m m') (hd : m.Has h d) (hd' : m'.Has h d')
    (hsock : d'.socket = d.socket) (i i' : UInt32) {s s' : Socket} (hs : R d.socket s s') :
    Matched R ((m.facing h d i s).touched c) ((m'.facing h d' i' s').touched c) where
  count := by
    show (m.sockets.set _ _).length = (m'.sockets.set _ _).length
    rw [List.length_set, List.length_set, ha.count]
  sockets j t t' ht ht' := by
    change (m.sockets.set d.socket s)[j]? = some t at ht
    change (m'.sockets.set d'.socket s')[j]? = some t' at ht'
    by_cases hj : d.socket = j
    · subst hj
      rw [List.getElem?_set_self hd.socket] at ht
      rw [← hsock, List.getElem?_set_self hd'.socket] at ht'
      cases ht
      cases ht'
      exact hs
    · rw [List.getElem?_set_ne hj] at ht
      rw [hsock, List.getElem?_set_ne hj] at ht'
      exact ha.sockets j t t' ht ht'
  devices := (map_wiring_set { d with hsmpIndex := i } hd.device rfl).trans
    (ha.devices.trans (map_wiring_set { d' with hsmpIndex := i' } hd'.device rfl).symm)
  found := ha.found
  cpus := ha.cpus
  privileged := ha.privileged
  processor := ha.processor

/-- The same word is at a register that is the same in related sockets. -/
theorem Matched.word (ha : Matched R m m') (h : DeviceHandle) {a : UInt32}
    (hR : ∀ i s s', R i s s' → s.registers.get a = s'.registers.get a) : m.word h a = m'.word h a := by
  rcases ha.device h with ⟨hno, hno'⟩ | ⟨d, d', s, s', hd, hd', -, hs, hs', hsame⟩
  · rw [word_error hno, word_error hno']
  · simp only [State.word, hd.device, hd'.device, hd.works, hd'.works, hs, hs', Bool.false_eq_true, if_false,
      hR _ _ _ hsame]

/-- An exchange of a message that fits ends the same on both machines if it does so on related sockets
    behind the device, and leaves the machines matched. -/
theorem Matched.run_exchange (ha : Matched R m m') (hl : Lockable c m) (hl' : Lockable c m') {mem mem' : Memory}
    (hd : mem.disabled = mem'.disabled) (k : DeviceHandle) {msg : Message} (hm : msg.Fits)
    (highest : Option MessageId)
    (hx : ∀ x s s', m.Has k x → m.sockets[x.socket]? = some s → R x.socket s s' →
      (s.exchange msg highest c.polls).1 = (s'.exchange msg highest c.polls).1 ∧
      R x.socket (s.exchange msg highest c.polls).2 (s'.exchange msg highest c.polls).2 ∧
      s.status msg c.polls = s'.status msg c.polls) :
    ∃ r u u', World.run machine (msg.exchange c k highest) ⟨m, mem⟩ = (r, u) ∧
      World.run machine (msg.exchange c k highest) ⟨m', mem'⟩ = (r, u') ∧
      Matched R u.machine u'.machine ∧ (Lockable c u.machine ∧ Lockable c u'.machine) ∧
      u.memory.disabled = u'.memory.disabled ∧
      u.memory.inventory = mem.inventory ∧ u'.memory.inventory = mem'.inventory := by
  obtain ⟨hargs, hresp⟩ := hm.sizes
  cases hdis : mem.disabled with
  | true =>
    exact ⟨_, _, _, run_exchange_disabled highest m k hdis hargs hresp,
      run_exchange_disabled highest m' k (hd.symm.trans hdis) hargs hresp, ha, ⟨hl, hl'⟩, hd, rfl, rfl⟩
  | false =>
    have hdis' : mem'.disabled = false := hd.symm.trans hdis
    rcases ha.device k with ⟨hno, hno'⟩ | ⟨x, x', s, s', hk, hk', hsock, hs, hs', hsame⟩
    · obtain ⟨u, hr, hidle⟩ := run_exchange_absent highest hno hl hdis hargs hresp
      obtain ⟨u', hr', hidle'⟩ := run_exchange_absent highest hno' hl' hdis' hargs hresp
      exact ⟨_, _, _, hr, hr', { ha.idle hidle hidle' with },
        ⟨(hl.idle hidle).touched, (hl'.idle hidle').touched⟩, hd, rfl, rfl⟩
    · obtain ⟨i, hr⟩ := Simulation.run_exchange highest hk hs hl hdis hargs hresp
      obtain ⟨i', hr'⟩ := Simulation.run_exchange highest hk' hs' hl' hdis' hargs hresp
      obtain ⟨hres, hsockets, hstatus⟩ := hx x s s' hk hs hsame
      rw [← hres, ← hstatus] at hr'
      have hwaited : ∀ mem : Memory, (mem.waited (s.status msg c.polls)).inventory = mem.inventory := by
        intro mem
        unfold Memory.waited
        split <;> rfl
      refine ⟨_, _, _, hr, hr', ha.facing hk hk' hsock i i' hsockets,
        ⟨Lockable.touched (m := m.facing k x i _) hl, Lockable.touched (m := m'.facing k x' i' _) hl'⟩, ?_,
        hwaited mem, hwaited mem'⟩
      unfold Memory.waited
      split
      · rfl
      · exact hd

end State

theorem busNumber_outside (k : Nat) : ¬ Socket.InMailbox (Register.busNumber k) := by
  have h : ∀ j < 4, Register.busNumber j ≠ Register.messageId ∧
      ∀ i < Register.slotCount, Register.busNumber j ≠ Register.slot i := by decide
  obtain ⟨j, hj, he⟩ := busNumber_eq k
  rintro (hs | hm | ⟨i, hi, hs⟩)
  · exact busNumber_ne_status k hs
  · exact (h j hj).1 (he.symm.trans hm)
  · exact (h j hj).2 i hi (he.symm.trans hs)

variable {α : Type}

/-- Processes that know the same, on machines that are alike. -/
structure Twins (c : Config) (old : Nat → Firmware.Log) (w w' : World State) : Prop where
  machine : w.machine.Alike c old w'.machine
  disabled : w.memory.disabled = w'.memory.disabled
  inventory : w.memory.inventory = w'.memory.inventory

/-- The program ends the same for twins and leaves them twins. -/
def Agrees (c : Config) (old : Nat → Firmware.Log) (p : Program α) : Prop :=
  ∀ w w', Twins c old w w' →
    (Program.run (World.answer machine) p w).1 = (Program.run (World.answer machine) p w').1 ∧
      Twins c old (Program.run (World.answer machine) p w).2 (Program.run (World.answer machine) p w').2

namespace Agrees

theorem closed : Program.Closed fun p => Agrees c old p := World.Parallel.closed

/-- Questions to the system and to the memory. -/
theorem request {q : Request} (hq : q.isExchange = false ∨ q = .isDisabled ∨ q = .disable) :
    Agrees c old (Program.request q) := by
  rintro ⟨m, mem⟩ ⟨m', mem'⟩ ⟨hm, hd, hi⟩
  cases q
  case isPrivileged => exact ⟨hm.privileged, hm, hd, hi⟩
  case processor => exact ⟨hm.processor, hm, hd, hi⟩
  case devices => exact ⟨congrArg Except.ok hm.found, { hm with }, hd, hi⟩
  case cpus => exact ⟨congrArg Except.ok hm.cpus, hm, hd, hi⟩
  case isDisabled => exact ⟨hd, hm, hd, hi⟩
  case «recall» => exact ⟨hi, hm, hd, hi⟩
  case disable => exact ⟨rfl, hm, rfl, hi⟩
  case publish => exact ⟨rfl, hm, hd, rfl⟩
  case forget => exact ⟨rfl, hm, hd, rfl⟩
  case print => exact ⟨rfl, hm, hd, hi⟩
  all_goals rcases hq with hq | hq | hq <;> cases hq

theorem smn_read (d : DeviceHandle) (k : Nat) :
    Agrees c old (Aperture.smn.read d (Register.busNumber k)).run := by
  refine World.Parallel.of_runs fun w w' h => ?_
  obtain ⟨m, hr, hi⟩ := run_smn_read w.machine d (busNumber_ne_status k) w.memory
  obtain ⟨m', hr', hi'⟩ := run_smn_read w'.machine d (busNumber_ne_status k) w'.memory
  rw [← h.machine.word d fun _ _ _ hs => hs.registers _ (busNumber_outside k)] at hr'
  have hlock := h.machine.lock
  exact ⟨_, _, _, hr, hr', ⟨h.machine.idle hi hi', hlock.1.idle hi, hlock.2.idle hi'⟩, h.disabled, h.inventory⟩

/-- An exchange of a message that fits: like sockets behind the device answer it the same. -/
theorem exchange (d : DeviceHandle) {m : Message} (hm : m.Fits) (highest : Option MessageId) :
    Agrees c old (m.exchange c d highest).run := by
  refine World.Parallel.of_runs fun ⟨n, mem⟩ ⟨n', mem'⟩ ⟨ha, hd, hi⟩ => ?_
  obtain ⟨r, u, u', hr, hr', hu, hl, hdis, hinv, hinv'⟩ := ha.run_exchange ha.lock.1 ha.lock.2 hd d hm highest
    fun x s s' _ _ hs => Socket.exchange_alike hs hm highest c.polls
  exact ⟨r, u, u', hr, hr', ⟨hu, hl⟩, hdis, hinv.trans (hi.trans hinv'.symm)⟩

variable {s : Session}

theorem gate (m? : Option MessageId) : Agrees s.config old (s.gate m?).run := by
  refine closed.gate (fun q hq => request ?_) (fun devices => closed.ofDevices devices fun _ _ _ _ =>
    smn_read _ _) s (fun d _ hm => exchange d hm none) m?
  cases q <;> simp [Request.ofGate, Request.isExchange] at hq ⊢

theorem perform (op : Operation) : Agrees s.config old (op.perform s).run :=
  closed.assembled gate (fun d _ highest hm => exchange d hm highest) (op.assembled s)

end Agrees

/-- Operations one after the other end the same for twins. -/
theorem agrees_performAll {s : Session} (ops : List Operation) {w w' : World State}
    (h : Twins s.config old w w') :
    (World.performAll machine s ops w).1 = (World.performAll machine s ops w').1 ∧
      Twins s.config old (World.performAll machine s ops w).2 (World.performAll machine s ops w').2 := by
  induction ops generalizing w w' with
  | nil => exact ⟨rfl, h⟩
  | cons op ops ih =>
    obtain ⟨hr, ht⟩ := Agrees.perform op w w' h
    obtain ⟨hrs, hend⟩ := ih ht
    exact ⟨congrArg₂ List.cons hr hrs, hend⟩

/-- Nothing but what exchanges leave behind tells the machines apart: the firmware is the same, and does
    not claim to have answered where it did not; the registers agree outside the mailbox, and the devices
    are the same up to their index registers. -/
structure State.Resembles (m m' : State) : Prop where
  sockets : List.Forall₂ (fun s s' : Socket => s.firmware = s'.firmware ∧
    s.firmware.forcedStatus ≠ some Status.ok ∧
    ∀ a, ¬ Socket.InMailbox a → s.registers.get a = s'.registers.get a) m.sockets m'.sockets
  devices : m.devices.map Device.wiring = m'.devices.map Device.wiring
  found : m.found = m'.found
  cpus : m.cpus = m'.cpus
  privileged : m.privileged = m'.privileged
  processor : m.processor = m'.processor

/-- The messages that socket `i` has logged. -/
def State.logOf (m : State) (i : Nat) : Firmware.Log := ((m.sockets[i]?).map (·.firmware.log)).getD []

theorem State.Resembles.alike {m m' : State} (h : m.Resembles m') (hl : Lockable c m) (hl' : Lockable c m') :
    State.Alike c m.logOf m m' where
  lock := ⟨hl, hl'⟩
  count := h.sockets.length_eq
  sockets i s s' hs hs' := by
    obtain ⟨hlt, hget⟩ := List.getElem?_eq_some_iff.mp hs
    obtain ⟨hlt', hget'⟩ := List.getElem?_eq_some_iff.mp hs'
    have hpair := h.sockets.get hlt hlt'
    rw [List.get_eq_getElem, List.get_eq_getElem, hget, hget'] at hpair
    obtain ⟨hfirm, hhonest, hreg⟩ := hpair
    refine ⟨hreg, ?_, hhonest⟩
    rw [← hfirm, State.logOf, hs]
    exact .refl _
  devices := h.devices
  found := h.found
  cpus := h.cpus
  privileged := h.privileged
  processor := h.processor

/-- Operations one after the other end each the same on two machines that only leftovers of exchanges
    tell apart. The firmware, too, ends up the same, and its status was read as often; only words that
    no argument covered may differ in what it logged on the way. -/
theorem leftovers_tell_nothing (s : Session) {m m' : State} {mem mem' : Memory} (h : m.Resembles m')
    (hl : Lockable s.config m) (hl' : Lockable s.config m') (hd : mem.disabled = mem'.disabled)
    (hi : mem.inventory = mem'.inventory) (ops : List Operation) :
    let u := World.performAll machine s ops ⟨m, mem⟩
    let u' := World.performAll machine s ops ⟨m', mem'⟩
    u.1 = u'.1 ∧ u.2.memory.disabled = u'.2.memory.disabled ∧ u.2.memory.inventory = u'.2.memory.inventory ∧
      u.2.machine.sockets.length = u'.2.machine.sockets.length ∧
      ∀ i (x x' : Socket), u.2.machine.sockets[i]? = some x → u'.2.machine.sockets[i]? = some x' →
        x.firmware.statusPolls = x'.firmware.statusPolls ∧
        x'.firmware = { x.firmware with log := x'.firmware.log } ∧
        ∃ new new', x.firmware.log = m.logOf i ++ new ∧ x'.firmware.log = m.logOf i ++ new' ∧
          List.Forall₂ SameMessage new new' := by
  have ht : Twins s.config m.logOf ⟨m, mem⟩ ⟨m', mem'⟩ := ⟨h.alike hl hl', hd, hi⟩
  obtain ⟨hr, ⟨hmach, hdis, hinv⟩⟩ := agrees_performAll ops ht
  refine ⟨hr, hdis, hinv, hmach.count, fun i x x' hx hx' => ?_⟩
  obtain ⟨hset, hlogs⟩ := (hmach.sockets i x x' hx hx').firmware
  exact ⟨by rw [hset], hset, hlogs⟩

/-- The crossed machine with what another process's message and its answer left in every mailbox, and
    with index registers that point elsewhere. -/
def worn : State :=
  { Topology.crossed with
    sockets := Topology.crossed.sockets.map fun s =>
      ⟨Socket.answered [7] (Socket.request { id := .getProcHot, args := [5, 6] } s.registers), s.firmware⟩
    devices := Topology.crossed.devices.map fun d => { d with smnIndex := 1, hsmpIndex := Register.status } }

theorem worn_resembles : Topology.crossed.Resembles worn where
  sockets := by
    refine List.forall₂_map_right_iff.mpr (List.forall₂_same.mpr fun s hs => ⟨rfl, ?_, fun a ha => ?_⟩)
    · obtain rfl | rfl : s = _ ∨ s = _ := by simpa [Topology.crossed, ofPlans] using hs
      · decide
      · decide
    · show _ = (Socket.answered [7] _).get a
      rw [Socket.answered_other (by decide) ha, Socket.request_other (by decide) ha]
  devices := rfl
  found := rfl
  cpus := rfl
  privileged := rfl
  processor := rfl

theorem worn_tells_nothing :
    (Topology.crossed.Resembles worn ∧ Lockable config Topology.crossed ∧ Lockable config worn) ∧
      (World.performAll machine ⟨config⟩ [.procHot 0, .setLinkWidthAuto, .fabricClocks 1]
        ⟨Topology.crossed, {}⟩).1 =
      (World.performAll machine ⟨config⟩ [.procHot 0, .setLinkWidthAuto, .fabricClocks 1] ⟨worn, {}⟩).1 := by
  have hl : Lockable config Topology.crossed := by
    show (Topology.crossed.storage.lock config.lockPath).1 = .ok ()
    decide +kernel
  exact ⟨⟨worn_resembles, hl, hl⟩, (leftovers_tell_nothing ⟨config⟩ worn_resembles hl hl rfl rfl _).1⟩

end Simulation

end FirmwareMailbox
