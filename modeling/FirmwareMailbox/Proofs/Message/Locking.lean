/-
  FirmwareMailbox.Proofs.Message.Locking — an exchange has the lock, or it accesses nothing.

  Rules. A machine keeps its lock file in a storage (`Machine.Locks`). An access to a device does
  nothing to the storage; taking and giving back the lock does what it does to files, but the lock may be
  refused, before its file was opened or after. Nobody else is asked: as long as one process holds
  the lock, an attempt that does not wait is refused, and one that waits goes on waiting.

  Proved:
  (1) every access of an exchange is made while its own lock is held, over those held before
      (`Bracketed.held`); without the lock there is no access (`Bracketed.untouched`);
  (2) whatever an exchange ends in, the same locks are held as before it, so the next one who tries
      gets the lock (`Bracketed.returned`, `Bracketed.free`);
  (3) exchanges, one after the other and by whatever process, write to no file. The lock's own file is
      made empty if it was absent, and stays as it is (`Node.Grows`).
-/

import FirmwareMailbox.Proofs.Machine.Requests
import FirmwareMailbox.Proofs.Message.Trace
import FirmwareMailbox.Proofs.Storage.Lock

namespace FirmwareMailbox

variable {μ α : Type}

/-- The machine's lock is the one on files that it keeps in its storage. -/
structure Machine.Locks (M : Machine μ) (storage : μ → Storage) : Prop where
  read : ∀ d o m, storage (M.read d o m).2 = storage m
  write : ∀ d o v m, storage (M.write d o v m).2 = storage m
  granted : ∀ path m m', M.lock path m = (.ok (), m') → (storage m).lock path = (.ok (), storage m')
  refused : ∀ path m e m', M.lock path m = (.error e, m') →
    storage m' = storage m ∨ storage m' = (storage m).opened path
  unlock : ∀ path m, storage (M.unlock path m) = (storage m).unlock path

/-- A message to send, with all that goes with it. -/
structure Sending where
  config : Config
  device : DeviceHandle
  message : Message
  highest : Option MessageId := none

namespace Sending

def job (s : Sending) : Job (List UInt32) := s.message.exchange s.config s.device s.highest

/-- What is left to do when only the lock is missing. -/
abbrev lockedJob (s : Sending) : Job (List UInt32) :=
  Job.locked s.config.lockPath (s.message.converse s.config s.device s.highest)

/-- The machine after messages were sent one after the other, each by a process with a memory of its
    own. -/
def machineAfter (M : Machine μ) : List (Memory × Sending) → μ → μ
  | [], m => m
  | (memory, s) :: rest, m => machineAfter M rest (World.run M s.job ⟨m, memory⟩).2.machine

/-- The lock is around everything that sending the message does. -/
structure Bracketed (M : Machine μ) (storage : μ → Storage) (s : Sending) (w : World μ) : Prop where
  /-- At an access the lock is held, and nobody else gets it. -/
  held : ∀ x ∈ World.history M s.job w, x.2.request.isAccess = true →
    (storage x.1.machine).Holds s.config.lockPath (storage w.machine) ∧
      ((storage x.1.machine).tryLock s.config.lockPath).1 = .error (.system .wouldBlock)
  /-- A message of a wrong size, a process that gave up or a lock that is not to be had: no access. -/
  untouched : s.message.checkSize ≠ .ok () ∨ w.memory.disabled = true ∨
      (M.lock s.config.lockPath w.machine).1 ≠ .ok () →
    ∀ x ∈ World.transcript M s.job w, x.request.isAccess = false
  returned : (storage (World.run M s.job w).2.machine).locked = (storage w.machine).locked
  /-- Nobody has the lock at the end if nobody had it before. -/
  free : (storage w.machine).Free s.config.lockPath →
    (storage (World.run M s.job w).2.machine).Free s.config.lockPath ∧
      (⟨.lock s.config.lockPath, .ok ()⟩ ∈ World.transcript M s.job w →
        ((storage (World.run M s.job w).2.machine).tryLock s.config.lockPath).1 = .ok ())

end Sending

namespace Machine.Locks

variable {M : Machine μ} {storage : μ → Storage}

/-- Whatever belongs to an exchange, but for the lock, leaves the storage alone. -/
theorem keeps (hM : M.Locks storage) {q : Request} (hq : q.isExchange = true) (hl : q.isLocking = false)
    (w : World μ) : storage (World.answer M q w).2.machine = storage w.machine := by
  cases q
  case read d o => exact hM.read d o w.machine
  case write d o v => exact hM.write d o v w.machine
  case lock | unlock => cases hl
  case pause | isDisabled | disable => rfl
  all_goals cases hq

/-- The lock is held all the time that a job runs under it, and given back at its end. -/
theorem locked (hM : M.Locks storage) {body : Job α}
    (hb : Job.Only (fun q => q.isExchange = true ∧ q.isLocking = false) body) {path : String} {w : World μ}
    {m : μ} (hl : M.lock path w.machine = (.ok (), m)) :
    (∀ x ∈ World.history M (Job.locked path body) w, x.2.request.isAccess = true →
      (storage x.1.machine).Holds path (storage w.machine)) ∧
    storage (World.run M (Job.locked path body) w).2.machine = (storage w.machine).opened path := by
  have hg : (storage w.machine).lock path = (.ok (), storage m) := hM.granted path w.machine m hl
  -- the storage is as the lock left it until it is given back
  obtain ⟨hbody, hend⟩ := World.history_keeps (M := M) (I := fun u => storage u.machine = storage m) hb
    (fun q u hq hu => (hM.keeps hq.1 hq.2 u).trans hu) (w := { w with machine := m }) rfl
  have hlock : World.answer M (.lock path) w = (.ok (), { w with machine := m }) := by
    simp only [World.answer, hl]
  constructor
  · intro x hx hacc
    rw [World.locked_eq, World.history, ExceptT.run_mk, Program.history, hlock] at hx
    rcases List.mem_cons.mp hx with rfl | hx
    · cases hacc
    rw [World.lockedRest, Program.history_bind] at hx
    rcases List.mem_append.mp hx with hx | hx
    · rw [hbody x hx]
      exact Storage.holds_of_lock hg
    · obtain rfl := List.mem_singleton.mp hx
      cases hacc
  · rw [World.run_locked hl (rfl : World.run M body { w with machine := m } = _)]
    show storage (M.unlock path (World.run M body { w with machine := m }).2.machine) = _
    rw [hM.unlock, ← Storage.touch_eq_opened (congrArg Prod.fst hg), Storage.touch, hg]
    exact congrArg (Storage.unlock path) hend

end Machine.Locks

namespace Sending

variable {M : Machine μ} {storage : μ → Storage} {s : Sending} {w : World μ}

/-- A message of the right size is sent under the lock, unless the process gave up. -/
theorem job_run (hm : s.message.checkSize = .ok ()) :
    s.job.run = .ask .isDisabled fun b =>
      if b = true then .done (.error (.unsupported .disabled)) else s.lockedJob.run := by
  unfold job Message.exchange
  rw [hm]
  refine congrArg (Program.ask .isDisabled) (funext fun b => ?_)
  cases b <;> rfl

theorem job_run_error {e : Error} (hm : s.message.checkSize = .error e) : s.job.run = .done (.error e) := by
  unfold job Message.exchange
  rw [hm]
  rfl

/-- An exchange that gets the lock has it at every access, and gives it back. -/
theorem sends (hM : M.Locks storage) (hm : s.message.checkSize = .ok ()) (hd : w.memory.disabled = false)
    (hl : (M.lock s.config.lockPath w.machine).1 = .ok ()) :
    (∀ x ∈ World.history M s.job w, x.2.request.isAccess = true →
      (storage x.1.machine).Holds s.config.lockPath (storage w.machine)) ∧
    storage (World.run M s.job w).2.machine = (storage w.machine).opened s.config.lockPath := by
  obtain ⟨hheld, hend⟩ := hM.locked (Message.converse_only (Message.checkSize_eq_ok hm).1 s.device s.config
    s.highest) (w := w) (m := (M.lock s.config.lockPath w.machine).2) (Prod.ext hl rfl)
  unfold World.history World.run
  simp only [job_run hm, Program.run, Program.history, World.answer, hd, Bool.false_eq_true, if_false]
  refine ⟨fun x hx hacc => ?_, hend⟩
  rcases List.mem_cons.mp hx with rfl | hx
  · cases hacc
  · exact hheld x hx hacc

/-- One that stops short of the lock leaves no trace but the lock's file. -/
theorem stops (hM : M.Locks storage)
    (h : s.message.checkSize ≠ .ok () ∨ w.memory.disabled = true ∨
      (M.lock s.config.lockPath w.machine).1 ≠ .ok ()) :
    (∀ x ∈ World.transcript M s.job w,
      x.request.isAccess = false ∧ x ≠ ⟨.lock s.config.lockPath, .ok ()⟩) ∧
    (storage (World.run M s.job w).2.machine = storage w.machine ∨
      storage (World.run M s.job w).2.machine = (storage w.machine).opened s.config.lockPath) := by
  unfold World.transcript World.run
  cases hm : s.message.checkSize with
  | error e =>
    rw [job_run_error hm]
    exact ⟨by simp [Program.transcript], Or.inl rfl⟩
  | ok _ =>
  rw [job_run hm]
  cases hd : w.memory.disabled with
  | true =>
    simp only [Program.run, Program.transcript, World.answer, hd, if_true]
    exact ⟨by simp [Request.isAccess], Or.inl trivial⟩
  | false =>
  rcases hl : M.lock s.config.lockPath w.machine with ⟨x, m⟩
  cases x with
  | ok _ =>
    exfalso
    rcases h with h | h | h
    · exact h hm
    · exact Bool.false_ne_true (hd.symm.trans h)
    · exact h (by rw [hl])
  | error e =>
    rw [lockedJob, World.locked_eq]
    simp only [Program.run, Program.transcript, World.answer, hd, hl, Bool.false_eq_true, if_false,
      ExceptT.run_mk, World.lockedRest]
    exact ⟨by simp [Request.isAccess], hM.refused _ _ e m hl⟩

/-- There is no third way. -/
theorem sends_or_stops (M : Machine μ) (s : Sending) (w : World μ) :
    (s.message.checkSize = .ok () ∧ w.memory.disabled = false ∧
        (M.lock s.config.lockPath w.machine).1 = .ok ()) ∨
      (s.message.checkSize ≠ .ok () ∨ w.memory.disabled = true ∨
        (M.lock s.config.lockPath w.machine).1 ≠ .ok ()) := by
  by_cases hm : s.message.checkSize = .ok ()
  · by_cases hd : w.memory.disabled = true
    · exact Or.inr (Or.inr (Or.inl hd))
    · by_cases hl : (M.lock s.config.lockPath w.machine).1 = .ok ()
      · exact Or.inl ⟨hm, Bool.eq_false_iff.mpr hd, hl⟩
      · exact Or.inr (Or.inr (Or.inr hl))
  · exact Or.inr (Or.inl hm)

/-- An exchange leaves the storage as it was, but that the lock's file was opened. -/
theorem storage_after (hM : M.Locks storage) (s : Sending) (w : World μ) :
    storage (World.run M s.job w).2.machine = storage w.machine ∨
      storage (World.run M s.job w).2.machine = (storage w.machine).opened s.config.lockPath := by
  rcases sends_or_stops M s w with ⟨hm, hd, hl⟩ | h
  · exact Or.inr (sends hM hm hd hl).2
  · exact (stops hM h).2

theorem bracketed (hM : M.Locks storage) (s : Sending) (w : World μ) : s.Bracketed M storage w := by
  have hafter := storage_after hM s w
  have hfree : (storage w.machine).Free s.config.lockPath →
      (storage (World.run M s.job w).2.machine).Free s.config.lockPath := by
    intro h
    rcases hafter with ha | ha
    · rwa [ha]
    · rw [ha]
      exact h.opened
  refine ⟨fun x hx hacc => ?_, fun h x hx => ((stops hM h).1 x hx).1, ?_, fun h => ⟨hfree h, fun hlock => ?_⟩⟩
  · have hheld : (storage x.1.machine).Holds s.config.lockPath (storage w.machine) := by
      rcases sends_or_stops M s w with ⟨hm, hd, hl⟩ | h
      · exact (sends hM hm hd hl).1 x hx hacc
      · have hx' : x.2 ∈ World.transcript M s.job w := by
          rw [← World.map_history]
          exact List.mem_map_of_mem hx
        rw [((stops hM h).1 _ hx').1] at hacc
        cases hacc
    exact ⟨hheld, hheld.blocks⟩
  · rcases hafter with ha | ha
    · rw [ha]
    · rw [ha, Storage.opened_locked]
  · rcases sends_or_stops M s w with ⟨hm, hd, hl⟩ | hs
    · have hg := hM.granted _ _ _ (Prod.ext hl rfl : M.lock s.config.lockPath w.machine = (.ok (), _))
      rw [(hfree h).tryLock, (sends hM hm hd hl).2, ← Storage.touch_eq_opened (congrArg Prod.fst hg)]
      exact Storage.lock_touch (congrArg Prod.fst hg)
    · exact absurd rfl ((stops hM hs).1 _ hlock).2

/-- Messages, one after the other, write to no file. -/
theorem machineAfter_grows (hM : M.Locks storage) (sends : List (Memory × Sending)) (m : μ) :
    (storage m).root.Grows (storage (machineAfter M sends m)).root := by
  induction sends generalizing m with
  | nil => exact Storage.Node.Grows.refl _
  | cons x rest ih =>
    obtain ⟨memory, s⟩ := x
    refine Storage.Node.Grows.trans ?_ (ih _)
    rcases storage_after hM s ⟨m, memory⟩ with ha | ha
    · rw [ha]
      exact Storage.Node.Grows.refl _
    · rw [ha]
      exact Storage.opened_grows _ _

end Sending

/-- The lock is around every exchange, whatever the devices answer, and no exchange writes to a file. -/
theorem Machine.lock_brackets_exchanges (M : Machine μ) {storage : μ → Storage} (hM : M.Locks storage) :
    (∀ (s : Sending) (w : World μ), s.Bracketed M storage w) ∧
      ∀ (sends : List (Memory × Sending)) (m : μ),
        (storage m).root.Grows (storage (Sending.machineAfter M sends m)).root :=
  ⟨Sending.bracketed hM, Sending.machineAfter_grows hM⟩

namespace Simulation

theorem machine_locks : machine.Locks State.storage where
  read h o m := by
    show (State.read h o m).2.storage = m.storage
    unfold State.read State.readRegister
    repeat' split
    all_goals rfl
  write h o v m := by
    show (State.write h o v m).2.storage = m.storage
    unfold State.write State.writeRegister
    repeat' split
    all_goals rfl
  granted path m m' hl := by
    obtain ⟨hx, hm⟩ := Prod.mk.inj hl
    rw [← hm]
    exact Prod.ext hx rfl
  refused path m e m' hl := by
    obtain ⟨hx, hm⟩ := Prod.mk.inj hl
    rw [← hm]
    exact Or.inl (Storage.lock_error hx)
  unlock _ _ := rfl

/-- A process that will send the test message; somebody wrote to the file of its lock. -/
def scribbled : World State :=
  ⟨{ usual 1 3 with storage := { root := .directory [("hsmp.lock", .file [7])] } }, {}⟩

/-- The test message with 41, on its way to the first device. -/
def pingSending : Sending := { config := config, device := 0, message := Message.ping }

theorem scribbled_ping_bracketed :
    machine.Locks State.storage ∧ (World.run machine pingSending.job scribbled).1 = .ok [42] ∧
      (∀ x ∈ World.history machine pingSending.job scribbled, x.2.request.isAccess = true →
        (x.1.machine.storage.tryLock "hsmp.lock").1 = .error (.system .wouldBlock)) ∧
      ((World.run machine pingSending.job scribbled).2.machine.storage.tryLock "hsmp.lock").1 = .ok () ∧
      (Sending.machineAfter machine [({}, pingSending), ({}, pingSending)]
        scribbled.machine).storage.root.get ["hsmp.lock"] = .ok (.file [7]) := by
  obtain ⟨hbracketed, hgrows⟩ := Machine.lock_brackets_exchanges machine machine_locks
  have h := hbracketed pingSending scribbled
  have hlock : ⟨.lock "hsmp.lock", .ok ()⟩ ∈ World.transcript machine pingSending.job scribbled := by
    obtain ⟨fs, ht, -⟩ := Message.exchange_locked machine (w := scribbled) (m := Message.ping) (c := config) 0
      none rfl rfl rfl
    refine ht ▸ List.mem_cons_of_mem _ (List.mem_cons_self ..)
  refine ⟨machine_locks, by decide +kernel, fun x hx hacc => (h.held x hx hacc).2, (h.free ?_).2 hlock,
    (hgrows _ _ _ _ rfl).1 rfl⟩
  intro root ns _ l hl
  cases hl

end Simulation

end FirmwareMailbox
