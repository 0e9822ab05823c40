/-
  FirmwareMailbox.Proofs.Simulation.Mailbox — an exchange on a simulated machine, as one step of a
  socket.

  Whatever is done through the mailbox window of a device changes one socket and the device's own
  index register (`State.facing`). So a job on the window is a step of that socket (`Does`), and steps
  follow one another as the jobs do. An exchange is a single such step, `Socket.exchange`: the
  firmware is started on cleared status, arguments and number, and what it left in the status
  decides the rest (`does_converse`).
-/

import FirmwareMailbox.Machine.Simulation
import FirmwareMailbox.Message.Exchange
import FirmwareMailbox.Proofs.Machine.Runs
import FirmwareMailbox.Proofs.Message.Transaction

namespace FirmwareMailbox

namespace RegisterFile

variable (r : RegisterFile)

@[simp] theorem get_set (a v b : UInt32) : (r.set a v).get b = if b = a then v else r.get b := rfl

theorem slot_inj : ∀ i < Register.slotCount, ∀ j < Register.slotCount,
    Register.slot i = Register.slot j → i = j := by
  decide

/-- What is outside the slots stays. -/
theorem get_setSlots_of_ne {a : UInt32} (ha : ∀ i < Register.slotCount, a ≠ Register.slot i)
    (ws : List UInt32) (i : Nat) (hl : i + ws.length ≤ Register.slotCount) :
    (r.setSlots i ws).get a = r.get a := by
  induction ws generalizing r i with
  | nil => rfl
  | cons w ws ih =>
    rw [List.length_cons] at hl
    rw [setSlots, ih _ (i + 1) (by omega), get_set, if_neg (ha i (by omega))]

/-- A slot holds its word, or what it held before if none was stored there. -/
theorem get_setSlots (ws : List UInt32) (i : Nat) {j : Nat} (hl : i + ws.length ≤ Register.slotCount)
    (hj : j < Register.slotCount) : (r.setSlots i ws).get (Register.slot j) =
      if i ≤ j then ws[j - i]?.getD (r.get (Register.slot j)) else r.get (Register.slot j) := by
  induction ws generalizing r i with
  | nil => simp [setSlots]
  | cons w ws ih =>
    rw [List.length_cons] at hl
    rw [setSlots, ih _ (i + 1) (by omega), get_set]
    have hne : j ≠ i → Register.slot j ≠ Register.slot i :=
      fun h he => h (slot_inj j hj i (by omega) he)
    rcases Nat.lt_trichotomy j i with h | rfl | h
    · simp only [if_neg (hne (Nat.ne_of_lt h)), if_neg (Nat.not_le_of_lt h),
        if_neg (show ¬ i + 1 ≤ j by omega)]
    · simp only [if_true, if_neg (Nat.not_succ_le_self j), Nat.le_refl, Nat.sub_self,
        List.getElem?_cons_zero, Option.getD_some]
    · obtain ⟨k, rfl⟩ : ∃ k, j = i + 1 + k := ⟨j - (i + 1), by omega⟩
      have hk : i + 1 + k - i = k + 1 := by omega
      simp only [if_neg (hne (Nat.ne_of_gt h)), if_pos (Nat.le_of_lt h), if_pos (Nat.le_add_right _ k),
        Nat.add_sub_cancel_left, hk, List.getElem?_cons_succ]

end RegisterFile

/-- The memory after a wait that ended with this status: firmware that did not answer is given up. -/
def Memory.waited (status : UInt32) (mem : Memory) : Memory :=
  if status = Status.notReady then { mem with disabled := true } else mem

namespace Simulation

variable {α β : Type}

/-! ## What a socket does in an exchange -/

namespace Socket

/-- The status was read so many more times. -/
def polled (n : Nat) (s : Socket) : Socket :=
  { s with firmware := { s.firmware with statusPolls := s.firmware.statusPolls + n } }

theorem polled_polled (n k : Nat) (s : Socket) : (s.polled n).polled k = s.polled (n + k) := by
  simp [polled, Nat.add_assoc]

@[simp] theorem polled_registers (n : Nat) (s : Socket) : (s.polled n).registers = s.registers := rfl

theorem write_of_ne {a v : UInt32} (h : a ≠ Register.messageId) (s : Socket) :
    s.write a v = { s with registers := s.registers.set a v } := if_neg h

theorem read_of_ne {a : UInt32} (h : a ≠ Register.status) (s : Socket) :
    s.read a = (s.registers.get a, s) := by
  simp only [read, if_neg h]

theorem read_status (s : Socket) : s.read Register.status = (s.registers.get Register.status, s.polled 1) :=
  rfl

/-- The registers that a message finds: no status, its arguments, its number. -/
def request (m : Message) (r : RegisterFile) : RegisterFile :=
  ((r.set Register.status Status.notReady).setSlots 0 m.args).set Register.messageId m.id.number

/-- The socket after the firmware was started on a message. -/
def started (m : Message) (s : Socket) : Socket :=
  { s with registers := request m s.registers }.trigger m.id.number

/-- How often the status is read until it is set. -/
def polls (code : UInt32) (budget : Nat) : Nat :=
  if code = Status.notReady then budget else min 1 budget

/-- The status that waiting ends with. -/
def awaited (code : UInt32) (budget : Nat) : UInt32 := if budget = 0 then Status.notReady else code

/-- The status that the wait for an answer to a message ends with. -/
def status (m : Message) (polls : UInt32) (s : Socket) : UInt32 :=
  awaited ((s.started m).registers.get Register.status) polls.toNat

/-- A whole exchange: its result, and the socket after it. -/
def exchange (m : Message) (highest : Option MessageId) (polls : UInt32) (s : Socket) :
    Except Error (List UInt32) × Socket :=
  (match Message.refusal? m.id highest polls (s.status m polls) with
    | none =>
      .ok ((List.range m.responseLength).map fun i => (s.started m).registers.get (Register.slot i))
    | some e => .error e,
   (s.started m).polled (Socket.polls ((s.started m).registers.get Register.status) polls.toNat))

end Socket

/-! ## Jobs on the mailbox window of a device -/

theorem run_write {h : DeviceHandle} {o v : UInt32} {m m' : State} {r : Except Error Unit} {mem : Memory}
    (hw : State.write h o v m = (r, m')) : World.run machine (Job.write h o v) ⟨m, mem⟩ = (r, ⟨m', mem⟩) := by
  show ((State.write h o v m).1, (⟨(State.write h o v m).2, mem⟩ : World State)) = _
  rw [hw]

theorem run_read {h : DeviceHandle} {o : UInt32} {m m' : State} {r : Except Error UInt32} {mem : Memory}
    (hr : State.read h o m = (r, m')) : World.run machine (Job.read h o) ⟨m, mem⟩ = (r, ⟨m', mem⟩) := by
  show ((State.read h o m).1, (⟨(State.read h o m).2, mem⟩ : World State)) = _
  rw [hr]

/-- Device `h` is `d`, works and has a socket behind it. -/
structure State.Has (m : State) (h : DeviceHandle) (d : Device) : Prop where
  device : m.devices[h]? = some d
  works : d.broken = false
  socket : d.socket < m.sockets.length

/-- The machine with `i` in the mailbox index of device `h` and with `s` behind it. -/
def State.facing (m : State) (h : DeviceHandle) (d : Device) (i : UInt32) (s : Socket) : State :=
  { m with
    devices := m.devices.set h { d with hsmpIndex := i }
    sockets := m.sockets.set d.socket s }

/-- The job takes the socket behind device `h` from `s` to `s'`, the memory from `mem` to `mem'`, and
    touches nothing else but the device's mailbox index. -/
def Does (m : State) (h : DeviceHandle) (d : Device) (j : Job α) (s : Socket) (mem : Memory)
    (r : Except Error α) (s' : Socket) (mem' : Memory) : Prop :=
  ∀ i, ∃ i', World.run machine j ⟨m.facing h d i s, mem⟩ = (r, ⟨m.facing h d i' s', mem'⟩)

variable {m : State} {h : DeviceHandle} {d : Device} {s s' s'' : Socket} {mem mem' mem'' : Memory}

namespace Does

theorem bind {j : Job α} {f : α → Job β} {a : α} {r : Except Error β}
    (hj : Does m h d j s mem (.ok a) s' mem') (hf : Does m h d (f a) s' mem' r s'' mem'') :
    Does m h d (j >>= f) s mem r s'' mem'' := by
  intro i
  obtain ⟨i', hj⟩ := hj i
  obtain ⟨i'', hf⟩ := hf i'
  exact ⟨i'', (World.run_bind_ok hj).trans hf⟩

theorem lift (x : Except Error α) : Does m h d (liftM x) s mem x s mem := fun i => ⟨i, rfl⟩

end Does

section

variable (hm : m.Has h d)

include hm

theorem write_index (i a : UInt32) : State.write h Register.hsmpIndex a (m.facing h d i s) =
    (.ok (), m.facing h d a s) := by
  have hlt := (List.getElem?_eq_some_iff.mp hm.device).1
  simp only [State.write, State.facing, List.getElem?_set_self hlt, hm.works, Bool.false_eq_true,
    if_false, if_true, List.set_set]
  rw [if_neg (by decide)]

theorem write_data (a v : UInt32) : State.write h Register.hsmpData v (m.facing h d a s) =
    (.ok (), m.facing h d a (s.write a v)) := by
  have hlt := (List.getElem?_eq_some_iff.mp hm.device).1
  simp only [State.write, State.facing, List.getElem?_set_self hlt, hm.works, Bool.false_eq_true,
    if_false, if_true, State.writeRegister, List.getElem?_set_self hm.socket, List.set_set]
  rw [if_neg (by decide), if_neg (by decide), if_neg (by decide)]

theorem read_data (a : UInt32) : State.read h Register.hsmpData (m.facing h d a s) =
    (.ok (s.read a).1, m.facing h d a (s.read a).2) := by
  have hlt := (List.getElem?_eq_some_iff.mp hm.device).1
  simp only [State.read, State.facing, List.getElem?_set_self hlt, hm.works, Bool.false_eq_true,
    if_false, if_true, State.readRegister, List.getElem?_set_self hm.socket, List.set_set]
  rw [if_neg (by decide), if_neg (by decide)]

variable (mem)

theorem does_write (a v : UInt32) :
    Does m h d (Aperture.hsmp.write h a v) s mem (.ok ()) (s.write a v) mem := by
  intro i
  refine ⟨a, (World.run_bind_ok (run_write (write_index hm i a))).trans ?_⟩
  exact run_write (write_data hm a v)

theorem does_read (a : UInt32) :
    Does m h d (Aperture.hsmp.read h a) s mem (.ok (s.read a).1) (s.read a).2 mem := by
  intro i
  refine ⟨a, (World.run_bind_ok (run_write (write_index hm i a))).trans ?_⟩
  exact run_read (read_data hm a)

theorem does_writeSlots (ws : List UInt32) (i : Nat) (s : Socket)
    (hl : i + ws.length ≤ Register.slotCount) :
    Does m h d (Message.writeSlots h i ws) s mem (.ok ())
      { s with registers := s.registers.setSlots i ws } mem := by
  induction ws generalizing i s with
  | nil => exact .lift (.ok ())
  | cons w ws ih =>
    rw [List.length_cons] at hl
    have hw := does_write (s := s) mem hm (Register.slot i) w
    rw [Socket.write_of_ne (Message.slot_ne i (by omega)).1] at hw
    exact hw.bind (ih (i + 1) _ (by omega))

theorem does_readSlots (n i : Nat) (s : Socket) (hl : i + n ≤ Register.slotCount) :
    Does m h d (Message.readSlots h i n) s mem
      (.ok ((List.range' i n).map fun k => s.registers.get (Register.slot k))) s mem := by
  induction n generalizing i with
  | zero => exact .lift (.ok [])
  | succ n ih =>
    have hr := does_read (s := s) mem hm (Register.slot i)
    rw [Socket.read_of_ne (Message.slot_ne i (by omega)).2] at hr
    exact hr.bind ((ih (i + 1) (by omega)).bind (.lift (.ok _)))

theorem does_awaitStatus (interval n : Nat) (s : Socket) :
    Does m h d (Message.awaitStatus h interval n) s mem
      (.ok (Socket.awaited (s.registers.get Register.status) n))
      (s.polled (Socket.polls (s.registers.get Register.status) n)) mem := by
  induction n generalizing s with
  | zero =>
    rw [Socket.awaited, if_pos rfl, Socket.polls, Nat.min_zero, ite_self]
    exact .lift (.ok _)
  | succ n ih =>
    have hpause : Does m h d (Job.ask (.pause interval)) s mem (.ok ()) s mem := fun i => ⟨i, rfl⟩
    refine hpause.bind ((does_read _ hm Register.status).bind ?_)
    rw [Socket.read_status]
    rw [Socket.awaited, if_neg (Nat.succ_ne_zero n)]
    by_cases h0 : s.registers.get Register.status = Status.notReady
    · rw [if_pos h0]
      have hrest := ih (s.polled 1)
      rw [Socket.polled_registers, Socket.polled_polled, h0] at hrest
      rw [h0]
      have ha : Socket.awaited Status.notReady n = Status.notReady := by
        unfold Socket.awaited
        split <;> rfl
      rw [ha] at hrest
      rwa [Socket.polls, if_pos rfl, Nat.add_comm, ← show Socket.polls Status.notReady n = n from if_pos rfl]
    · rw [if_neg h0, Socket.polls, if_neg h0, Nat.min_eq_left (by omega)]
      exact .lift (.ok _)

/-- An exchange under the lock is one step of the socket; it gives up if the status stayed clear. -/
theorem does_converse (c : Config) (msg : Message) (highest : Option MessageId) (s : Socket)
    (ha : msg.args.length ≤ Register.slotCount) (hr : msg.responseLength ≤ Register.slotCount) :
    Does m h d (msg.converse c h highest) s mem (s.exchange msg highest c.polls).1
      (s.exchange msg highest c.polls).2 (mem.waited (s.status msg c.polls)) := by
  refine (does_write _ hm Register.status Status.notReady).bind ?_
  rw [Socket.write_of_ne (by decide)]
  refine (does_writeSlots _ hm msg.args 0 _ (by omega)).bind ?_
  refine (does_write _ hm Register.messageId msg.id.number).bind ?_
  have hstart : Socket.write Register.messageId msg.id.number
      { s with registers := (s.registers.set Register.status Status.notReady).setSlots 0 msg.args } =
        s.started msg := by
    simp only [Socket.write, if_true]
    rfl
  rw [hstart]
  refine (does_awaitStatus _ hm c.interval c.polls.toNat _).bind ?_
  simp only [Socket.exchange, Socket.status]
  cases hf : Message.refusal? msg.id highest c.polls
      (Socket.awaited ((s.started msg).registers.get Register.status) c.polls.toNat) with
  | none =>
    have hok := Message.refusal?_eq_none_iff.mp hf
    rw [hok, Memory.waited, if_neg (by decide)]
    have hread := does_readSlots mem hm msg.responseLength 0
      ((s.started msg).polled (Socket.polls ((s.started msg).registers.get Register.status) c.polls.toNat))
      (by omega)
    rwa [← List.range_eq_range'] at hread
  | some e =>
    by_cases h0 : Socket.awaited ((s.started msg).registers.get Register.status) c.polls.toNat =
        Status.notReady
    · rw [Memory.waited, if_pos h0]
      dsimp only
      rw [if_pos h0]
      have hdisable : ∀ {s : Socket}, Does m h d (Job.ask .disable) s mem (.ok ()) s
          { mem with disabled := true } := fun i => ⟨i, rfl⟩
      exact hdisable.bind (.lift (.error e))
    · rw [Memory.waited, if_neg h0]
      dsimp only
      rw [if_neg h0]
      exact .lift (.error e)

end

end Simulation

end FirmwareMailbox
