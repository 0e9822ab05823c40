/-
  FirmwareMailbox.Proofs.Simulation.Windows — the two windows of a device do not get in each other's
  way.

  Discovery looks through the one window, exchanges go through the other. What a machine is without the
  indexes that discovery writes (`State.plain`) is all that an exchange can see (`run_plain`), and no
  exchange touches them (`answer_smnIndex`). What discovery can see of a machine are its devices and
  the bus number registers behind them (`State.ports`), and no exchange changes those, neither at its
  end nor on its way (`converse_throughout`).
-/

import FirmwareMailbox.Proofs.Machine.Sharing
import FirmwareMailbox.Proofs.Simulation.Twins

namespace FirmwareMailbox

namespace Program

variable {α β σ : Type} {answer : (r : Request) → σ → r.Reply × σ} {I : σ → Prop}

/-- Every state that a run goes through, its last one included, is so. -/
def Throughout (answer : (r : Request) → σ → r.Reply × σ) (I : σ → Prop) : Program α → σ → Prop
  | .done _, s => I s
  | .ask r next, s => I s ∧ Throughout answer I (next (answer r s).1) (answer r s).2

theorem Throughout.first {p : Program α} {s : σ} (h : Throughout answer I p s) : I s := by
  cases p with
  | done a => exact h
  | ask r next => exact h.1

theorem Throughout.bind {p : Program α} {f : α → Program β} {s : σ} (hp : Throughout answer I p s)
    (hf : ∀ a s, I s → Throughout answer I (f a) s) : Throughout answer I (p.bind f) s := by
  induction p generalizing s with
  | done a => exact hf a s hp
  | ask r next ih => exact ⟨hp.1, ih _ hp.2⟩

/-- A failed access is the last one. -/
theorem Throughout.write {d : DeviceHandle} {o v : UInt32} {f : Unit → Job α} {s : σ} (hs : I s)
    (hw : I (answer (.write d o v) s).2)
    (hf : (answer (.write d o v) s).1 = .ok () → Throughout answer I (f ()).run (answer (.write d o v) s).2) :
    Throughout answer I (Job.write d o v >>= f).run s := by
  refine ⟨hs, ?_⟩
  show Throughout answer I (ExceptT.bindCont f (answer (.write d o v) s).1) _
  cases hr : (answer (.write d o v) s).1 with
  | ok _ => exact hf hr
  | error e => exact hw

theorem Throughout.closed (answer : (r : Request) → σ → r.Reply × σ) (I : σ → Prop) :
    Closed fun p => ∀ s, I s → Throughout answer I p s :=
  ⟨fun _ _ h => h, fun hp hf s h => (hp s h).bind hf⟩

end Program

/-- Belongs to an exchange, and goes through the window for the mailbox if it goes to a device. -/
def Request.throughMailbox : Request → Prop
  | .read _ o => o = Register.hsmpData
  | .write _ o _ => o = Register.hsmpIndex ∨ o = Register.hsmpData
  | .lock _ | .unlock _ | .pause _ | .isDisabled | .disable => True
  | _ => False

namespace Simulation

/-! ## One access to a window -/

section

variable {β : Type} (m : State) (h : DeviceHandle)

/-- What is done with a device if it is there and works. -/
def State.through (f : Device → State → Except Error β × State) : Except Error β × State :=
  match m.devices[h]? with
  | none => (.error (.bus .deviceRemoved), m)
  | some d => if d.broken then (.error (.bus .deviceRemoved), m) else f d m

/-- Whether the device takes an index. -/
def State.opens : Except Error Unit := (m.through h fun _ m => (.ok (), m)).1

theorem read_hsmpData : m.read h Register.hsmpData = m.through h fun d m => m.readRegister d d.hsmpIndex := rfl

theorem read_smnData : m.read h Register.smnData = m.through h fun d m => m.readRegister d d.smnIndex := rfl

theorem write_hsmpIndex (v : UInt32) : m.write h Register.hsmpIndex v = m.through h fun d m =>
    (.ok (), { m with devices := m.devices.set h { d with hsmpIndex := v } }) := rfl

theorem write_smnIndex (v : UInt32) : m.write h Register.smnIndex v = m.through h fun d m =>
    (.ok (), { m with devices := m.devices.set h { d with smnIndex := v } }) := rfl

theorem write_hsmpData (v : UInt32) :
    m.write h Register.hsmpData v = m.through h fun d m => m.writeRegister d d.hsmpIndex v := rfl

variable {m h}

theorem through_works {d : Device} (hd : m.devices[h]? = some d) (hb : d.broken = false)
    (f : Device → State → Except Error β × State) : m.through h f = f d m := by
  unfold State.through
  rw [hd]
  simp only [hb, Bool.false_eq_true, if_false]

theorem through_absent (hn : ¬ ∃ d, m.devices[h]? = some d ∧ d.broken = false)
    (f : Device → State → Except Error β × State) : m.through h f = (.error (.bus .deviceRemoved), m) := by
  unfold State.through
  cases hd : m.devices[h]? with
  | none => rfl
  | some d =>
    have hb : d.broken = true := by
      by_contra h'
      exact hn ⟨d, hd, Bool.eq_false_iff.mpr h'⟩
    simp only [hb, if_true]

/-- Whatever holds before holds after, if it does after the access of a device that works. -/
theorem through_keeps {P : State → Prop} {f : Device → State → Except Error β × State} (hP : P m)
    (hf : ∀ d, m.devices[h]? = some d → P (f d m).2) : P (m.through h f).2 := by
  by_cases hw : ∃ d, m.devices[h]? = some d ∧ d.broken = false
  · obtain ⟨d, hd, hb⟩ := hw
    rw [through_works hd hb]
    exact hf d hd
  · rwa [through_absent hw]

end

/-! ## What an exchange can see -/

/-- The device without its index for discovery. -/
def Device.plain (d : Device) : Device := { d with smnIndex := 0 }

def State.plain (m : State) : State := { m with devices := m.devices.map Device.plain }

/-- The process at the machine without those indexes. -/
def plainly (w : World State) : World State := { w with machine := w.machine.plain }

theorem plain_device (m : State) (h : DeviceHandle) : m.plain.devices[h]? = (m.devices[h]?).map Device.plain :=
  List.getElem?_map ..

theorem through_plain {β : Type} {f : Device → State → Except Error β × State}
    (hf : ∀ d m, f d.plain m.plain = ((f d m).1, (f d m).2.plain)) (m : State) (h : DeviceHandle) :
    m.plain.through h f = ((m.through h f).1, (m.through h f).2.plain) := by
  unfold State.through
  rw [plain_device]
  cases m.devices[h]? with
  | none => rfl
  | some d =>
    have hb : d.plain.broken = d.broken := rfl
    simp only [Option.map_some, hb]
    cases d.broken with
    | true => rfl
    | false => exact hf d m

theorem readRegister_plain (d : Device) (a : UInt32) (m : State) :
    m.plain.readRegister d.plain a = ((m.readRegister d a).1, (m.readRegister d a).2.plain) := by
  have hs : m.plain.sockets[d.plain.socket]? = m.sockets[d.socket]? := rfl
  unfold State.readRegister
  rw [hs]
  cases m.sockets[d.socket]? with
  | none => rfl
  | some s => rfl

theorem writeRegister_plain (d : Device) (a v : UInt32) (m : State) :
    m.plain.writeRegister d.plain a v = ((m.writeRegister d a v).1, (m.writeRegister d a v).2.plain) := by
  have hs : m.plain.sockets[d.plain.socket]? = m.sockets[d.socket]? := rfl
  unfold State.writeRegister
  rw [hs]
  cases m.sockets[d.socket]? with
  | none => rfl
  | some s => rfl

/-- What belongs to an exchange does the same whatever discovery left in its indexes. -/
theorem answer_plain {q : Request} (hq : q.throughMailbox) (w : World State) :
    World.answer machine q (plainly w) =
      ((World.answer machine q w).1, plainly (World.answer machine q w).2) := by
  obtain ⟨m, mem⟩ := w
  cases q
  case read h o =>
    obtain rfl : o = Register.hsmpData := hq
    show ((State.read h _ m.plain).1, (⟨(State.read h _ m.plain).2, mem⟩ : World State)) = _
    rw [read_hsmpData, through_plain fun d m => readRegister_plain d d.hsmpIndex m]
    rfl
  case write h o v =>
    show ((State.write h o v m.plain).1, (⟨(State.write h o v m.plain).2, mem⟩ : World State)) = _
    rcases hq with rfl | rfl
    · rw [write_hsmpIndex, through_plain]
      · rfl
      · intro d m
        simp only [State.plain, List.map_set]
        rfl
    · rw [write_hsmpData, through_plain fun d m => writeRegister_plain d d.hsmpIndex v m]
      rfl
  case lock | unlock | pause | isDisabled | disable => rfl
  all_goals cases hq

/-- So does a program of nothing else. -/
theorem run_plain {α : Type} {p : Program α} (hp : p.Only Request.throughMailbox) (w : World State) :
    Program.run (World.answer machine) p (plainly w) =
        ((Program.run (World.answer machine) p w).1, plainly (Program.run (World.answer machine) p w).2) ∧
      Program.transcript (World.answer machine) p (plainly w) = Program.transcript (World.answer machine) p w := by
  induction p generalizing w with
  | done a => exact ⟨rfl, rfl⟩
  | ask q next ih =>
    obtain ⟨hr, ht⟩ := ih (World.answer machine q w).1 (hp.2 _) (World.answer machine q w).2
    simp only [Program.run, Program.transcript, answer_plain hp.1]
    exact ⟨hr, by rw [ht]⟩

/-- Programs that go through the mailbox only do the same where the machines differ in the indexes of
    discovery. -/
theorem run_of_plainly {α : Type} {p : Program α} (hp : p.Only Request.throughMailbox) {w w' : World State}
    (hw : plainly w = plainly w') :
    (Program.run (World.answer machine) p w).1 = (Program.run (World.answer machine) p w').1 ∧
      plainly (Program.run (World.answer machine) p w).2 = plainly (Program.run (World.answer machine) p w').2 ∧
      Program.transcript (World.answer machine) p w = Program.transcript (World.answer machine) p w' := by
  obtain ⟨hr, ht⟩ := run_plain hp w
  obtain ⟨hr', ht'⟩ := run_plain hp w'
  rw [hw, hr'] at hr
  rw [hw, ht'] at ht
  obtain ⟨h1, h2⟩ := Prod.mk.inj hr
  exact ⟨h1.symm, h2.symm, ht.symm⟩

/-- The index that discovery left at a device. -/
def State.smnIndex? (m : State) (h : DeviceHandle) : Option UInt32 := (m.devices[h]?).map (·.smnIndex)

/-- It names this register, unless there is no such device. -/
def State.Names (m : State) (h : DeviceHandle) (a : UInt32) : Prop := ∀ i, m.smnIndex? h = some i → i = a

theorem State.Names.same {m m' : State} {h : DeviceHandle} {a : UInt32} (hn : m.Names h a)
    (hi : m'.smnIndex? = m.smnIndex?) : m'.Names h a := by
  unfold State.Names
  rwa [hi]

/-- Nothing that belongs to an exchange changes the indexes of discovery. -/
theorem answer_smnIndex {q : Request} (hq : q.throughMailbox) (w : World State) :
    (World.answer machine q w).2.machine.smnIndex? = w.machine.smnIndex? := by
  obtain ⟨m, mem⟩ := w
  have hsame : ∀ {m' : State}, m'.devices = m.devices → m'.smnIndex? = m.smnIndex? := by
    intro m' hm
    unfold State.smnIndex?
    rw [hm]
  cases q
  case read h o =>
    obtain rfl : o = Register.hsmpData := hq
    show (State.read h Register.hsmpData m).2.smnIndex? = m.smnIndex?
    rw [read_hsmpData]
    refine through_keeps (P := fun m' => m'.smnIndex? = m.smnIndex?) rfl fun d _ => hsame ?_
    unfold State.readRegister
    split <;> rfl
  case write h o v =>
    show (State.write h o v m).2.smnIndex? = m.smnIndex?
    rcases hq with rfl | rfl
    · rw [write_hsmpIndex]
      refine through_keeps (P := fun m' => m'.smnIndex? = m.smnIndex?) rfl fun d hd => funext fun g => ?_
      show ((m.devices.set h { d with hsmpIndex := v })[g]?).map (·.smnIndex) = (m.devices[g]?).map (·.smnIndex)
      by_cases hg : h = g
      · subst hg
        rw [List.getElem?_set_self (List.getElem?_eq_some_iff.mp hd).1, hd]
        rfl
      · rw [List.getElem?_set_ne hg]
    · rw [write_hsmpData]
      refine through_keeps (P := fun m' => m'.smnIndex? = m.smnIndex?) rfl fun d _ => hsame ?_
      unfold State.writeRegister
      split <;> rfl
  case lock | unlock | pause | isDisabled | disable => rfl
  all_goals cases hq

/-! ## What discovery can see -/

/-- The devices with their sockets, and the bus number registers of the sockets. -/
def State.ports (m : State) : List (Nat × Bool) × List (Nat → UInt32) :=
  (m.devices.map Device.wiring, m.sockets.map fun s k => s.registers.get (Register.busNumber k))

theorem plain_ports (m : State) : m.plain.ports = m.ports := by
  unfold State.ports State.plain
  rw [List.map_map]
  rfl

variable {m m' : State}

/-- What discovery is told by a device, read off the ports. -/
theorem opens_eq (m : State) (h : DeviceHandle) : m.opens h =
    match m.ports.1[h]? with
    | none => .error (.bus .deviceRemoved)
    | some (_, broken) => if broken then .error (.bus .deviceRemoved) else .ok () := by
  unfold State.opens State.through State.ports
  rw [List.getElem?_map]
  cases m.devices[h]? with
  | none => rfl
  | some d =>
    cases hb : d.broken <;> simp [Device.wiring, hb]

theorem word_eq (m : State) (h : DeviceHandle) (k : Nat) : m.word h (Register.busNumber k) =
    match m.ports.1[h]? with
    | none => .error (.bus .deviceRemoved)
    | some (s, broken) =>
      if broken then .error (.bus .deviceRemoved)
      else
        match m.ports.2[s]? with
        | none => .error (.bus .deviceRemoved)
        | some register => .ok (register k) := by
  unfold State.word State.ports
  rw [List.getElem?_map]
  cases m.devices[h]? with
  | none => rfl
  | some d =>
    simp only [Option.map_some, Device.wiring, List.getElem?_map]
    cases m.sockets[d.socket]? <;> rfl

theorem opens_of_ports (hp : m'.ports = m.ports) (h : DeviceHandle) : m'.opens h = m.opens h := by
  rw [opens_eq, opens_eq, hp]

theorem word_of_ports (hp : m'.ports = m.ports) (h : DeviceHandle) (k : Nat) :
    m'.word h (Register.busNumber k) = m.word h (Register.busNumber k) := by
  rw [word_eq, word_eq, hp]

/-- An index that discovery writes changes nothing else. -/
theorem write_smnIndex_eq (m : State) (h : DeviceHandle) (a : UInt32) :
    (m.write h Register.smnIndex a).1 = m.opens h ∧ (m.write h Register.smnIndex a).2.plain = m.plain ∧
      ∀ g, (m.write h Register.smnIndex a).2.smnIndex? g =
        if g = h ∧ m.opens h = .ok () then some a else m.smnIndex? g := by
  rw [write_smnIndex, State.opens]
  by_cases hw : ∃ d, m.devices[h]? = some d ∧ d.broken = false
  · obtain ⟨d, hd, hb⟩ := hw
    have hlt := (List.getElem?_eq_some_iff.mp hd).1
    rw [through_works hd hb, through_works hd hb]
    refine ⟨rfl, ?_, fun g => ?_⟩
    · exact congrArg (fun devices => ({ m with devices := devices } : State)) (State.map_set_same hd rfl)
    · show ((m.devices.set h { d with smnIndex := a })[g]?).map (·.smnIndex) = _
      by_cases hg : g = h
      · subst hg
        rw [List.getElem?_set_self hlt]
        simp
      · rw [List.getElem?_set_ne fun he => hg he.symm, if_neg fun h => hg h.1]
        rfl
  · rw [through_absent hw, through_absent hw]
    refine ⟨rfl, rfl, fun g => ?_⟩
    rw [if_neg]
    rintro ⟨-, he⟩
    cases he

/-- A look at the register that the index names finds the word that is there. -/
theorem read_smnData_eq {h : DeviceHandle} {a : UInt32} (ha : a ≠ Register.status)
    (hi : m.Names h a) : m.read h Register.smnData = (m.word h a, m) := by
  have hword : (m.through h fun d m => m.readRegister d a).1 = m.word h a := by
    unfold State.word State.through State.readRegister
    cases m.devices[h]? with
    | none => rfl
    | some d => cases hb : d.broken <;> cases hs : m.sockets[d.socket]? <;> simp [hb, hs, Socket.read_of_ne ha]
  rw [read_smnData, ← hword]
  by_cases hw : ∃ d, m.devices[h]? = some d ∧ d.broken = false
  · obtain ⟨d, hd, hb⟩ := hw
    have hda : d.smnIndex = a := hi d.smnIndex (by rw [State.smnIndex?, hd]; rfl)
    rw [through_works hd hb, through_works hd hb, hda]
    refine Prod.ext rfl ?_
    unfold State.readRegister
    cases hs : m.sockets[d.socket]? with
    | none => rfl
    | some s =>
      obtain ⟨hlt, rfl⟩ := List.getElem?_eq_some_iff.mp hs
      simp only [Socket.read_of_ne ha, List.set_getElem_self]
  · rw [through_absent hw, through_absent hw]

/-! ## What an exchange does to the ports -/

theorem slots_ne {a : UInt32} (ha : ¬ Socket.InMailbox a) : ∀ i < Register.slotCount, a ≠ Register.slot i :=
  fun i hi h => ha (Or.inr (Or.inr ⟨i, hi, h⟩))

/-- The firmware's answer goes to the mailbox. -/
theorem trigger_other (id : MessageId) (s : Socket) {a : UInt32} (ha : ¬ Socket.InMailbox a) :
    (s.trigger id.number).registers.get a = s.registers.get a := by
  have hstatus : a ≠ Register.status := fun h => ha (Or.inl h)
  unfold Socket.trigger
  dsimp only
  split
  · rfl
  split
  · rename_i ws f hans
    have hr : ∃ arg g, Firmware.respond g id.number arg = .ok (ws, f) := by
      split at hans
      · cases hans
      · exact ⟨_, _, hans⟩
    obtain ⟨arg, g, hr⟩ := hr
    have hcount : id.responseCount ≤ Register.slotCount := by
      cases id <;> decide
    have hlen : ws.length ≤ Register.slotCount := (Firmware.respond_ok hr).1 ▸ hcount
    rw [RegisterFile.get_set, if_neg hstatus,
      RegisterFile.get_setSlots_of_ne _ (slots_ne ha) _ _ (by omega)]
  · rw [RegisterFile.get_set, if_neg hstatus]

/-- So does whatever an exchange stores. -/
theorem write_other {msg : Message} {x v : UInt32} (hx : msg.Stores x v) (s : Socket) {a : UInt32}
    (ha : ¬ Socket.InMailbox a) : (s.write x v).registers.get a = s.registers.get a := by
  rcases hx with ⟨rfl, rfl⟩ | ⟨i, hi, rfl⟩ | ⟨rfl, rfl⟩
  · rw [Socket.write_of_ne (by decide), RegisterFile.get_set, if_neg fun h => ha (Or.inl h)]
  · rw [Socket.write_of_ne (Message.slot_ne i hi).1, RegisterFile.get_set, if_neg (slots_ne ha i hi)]
  · unfold Socket.write
    rw [if_pos rfl, trigger_other _ _ ha, RegisterFile.get_set, if_neg fun h => ha (Or.inr (Or.inl h))]

/-- Another socket behind a device, with the same bus number registers. -/
theorem ports_set_socket {i : Nat} {s s' : Socket} (hs : m.sockets[i]? = some s)
    (hb : ∀ k, s'.registers.get (Register.busNumber k) = s.registers.get (Register.busNumber k)) :
    State.ports { m with sockets := m.sockets.set i s' } = m.ports := by
  unfold State.ports
  rw [State.map_set_same hs (funext hb)]

theorem ports_write_hsmpIndex (m : State) (h : DeviceHandle) (v : UInt32) :
    (m.write h Register.hsmpIndex v).2.ports = m.ports := by
  rw [write_hsmpIndex]
  refine through_keeps (P := fun m' => m'.ports = m.ports) rfl fun d hd => ?_
  unfold State.ports
  rw [State.map_wiring_set { d with hsmpIndex := v } hd rfl]

theorem hsmpIndex_of_write {h : DeviceHandle} {v : UInt32} (hw : (m.write h Register.hsmpIndex v).1 = .ok ())
    {d : Device} (hd : (m.write h Register.hsmpIndex v).2.devices[h]? = some d) : d.hsmpIndex = v := by
  rw [write_hsmpIndex] at hw hd
  by_cases hworks : ∃ d, m.devices[h]? = some d ∧ d.broken = false
  · obtain ⟨d', hd', hb⟩ := hworks
    rw [through_works hd' hb] at hd
    change (m.devices.set h { d' with hsmpIndex := v })[h]? = some d at hd
    rw [List.getElem?_set_self (List.getElem?_eq_some_iff.mp hd').1] at hd
    cases hd
    rfl
  · rw [through_absent hworks] at hw
    cases hw

theorem ports_read_hsmpData (m : State) (h : DeviceHandle) : (m.read h Register.hsmpData).2.ports = m.ports := by
  rw [read_hsmpData]
  refine through_keeps (P := fun m' => m'.ports = m.ports) rfl fun d hd => ?_
  unfold State.readRegister
  split
  · rfl
  · rename_i s hs
    refine ports_set_socket hs fun k => ?_
    unfold Socket.read
    split <;> rfl

/-- What goes to a register of the mailbox changes no port. -/
theorem ports_write_hsmpData {msg : Message} {x v : UInt32} (hx : msg.Stores x v) {m : State} {h : DeviceHandle}
    (hi : ∀ d, m.devices[h]? = some d → d.hsmpIndex = x) :
    (m.write h Register.hsmpData v).2.ports = m.ports := by
  rw [write_hsmpData]
  refine through_keeps (P := fun m' => m'.ports = m.ports) rfl fun d hd => ?_
  unfold State.writeRegister
  split
  · rfl
  · rename_i s hs
    rw [hi d hd]
    exact ports_set_socket hs fun k => write_other hx s (busNumber_outside k)

/-- The lock is a file: discovery sees nothing of it. -/
theorem lock_keeps {path : String} {m m' : State} {x : Except Error Unit}
    (hl : machine.lock path m = (x, m')) : m'.ports = m.ports ∧ m'.smnIndex? = m.smnIndex? := by
  obtain rfl : (machine.lock path m).2 = m' := congrArg Prod.snd hl
  exact ⟨rfl, rfl⟩

/-- All the way through an exchange the ports are what they were. -/
theorem converse_throughout {msg : Message} (hl : msg.args.length ≤ Register.slotCount) (c : Config)
    (d : DeviceHandle) (highest : Option MessageId) (w : World State) :
    Program.Throughout (World.answer machine) (fun u => u.machine.ports = w.machine.ports)
      (msg.converse c d highest).run w := by
  refine (Program.Throughout.closed _ _).converse ?_ ?_ ?_ ?_ hl c highest w rfl
  · exact fun _ u hu => ⟨hu, hu⟩
  · exact fun u hu => ⟨hu, hu⟩
  · intro x _ u hu
    have hi := (ports_write_hsmpIndex u.machine d x).trans hu
    exact .write hu hi fun _ => ⟨hi, (ports_read_hsmpData _ d).trans hi⟩
  · intro x v hx u hu
    have hi := (ports_write_hsmpIndex u.machine d x).trans hu
    exact .write hu hi fun hw => ⟨hi, (ports_write_hsmpData hx fun d' => hsmpIndex_of_write hw).trans hi⟩

/-- Under the lock an exchange goes through the mailbox only, and leaves the lock alone. -/
theorem converse_throughMailbox {msg : Message} (hl : msg.args.length ≤ Register.slotCount) (c : Config)
    (d : DeviceHandle) (highest : Option MessageId) :
    Job.Only (fun q => q.throughMailbox ∧ q.isLocking = false) (msg.converse c d highest) := by
  refine Program.Only.closed.converse (fun _ => ⟨⟨trivial, rfl⟩, fun _ => trivial⟩)
    ⟨⟨trivial, rfl⟩, fun _ => trivial⟩ (fun x _ => ?_) (fun x v _ => ?_) hl c highest
  · exact Aperture.hsmp.only_read d x ⟨Or.inl rfl, rfl⟩ ⟨rfl, rfl⟩
  · exact Aperture.hsmp.only_write d x v ⟨Or.inl rfl, rfl⟩ ⟨Or.inr rfl, rfl⟩

/-- So does one with the lock around it. -/
theorem locked_throughMailbox {path : String} {body : Job (List UInt32)}
    (hb : Job.Only (fun q => q.throughMailbox ∧ q.isLocking = false) body) :
    Job.Only Request.throughMailbox (Job.locked path body) := by
  rw [World.locked_eq]
  refine ⟨trivial, fun x => ?_⟩
  cases x with
  | error e => trivial
  | ok _ => exact (Program.Only.mono (fun _ h => h.1) hb).bind fun _ => ⟨trivial, fun _ => trivial⟩

end Simulation

end FirmwareMailbox
