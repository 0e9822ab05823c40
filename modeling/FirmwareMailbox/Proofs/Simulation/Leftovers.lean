/-
  FirmwareMailbox.Proofs.Simulation.Leftovers — what earlier exchanges leave in a mailbox tells nothing
  to later ones.

  Two sockets are alike if their firmware is the same and their registers agree outside the mailbox
  (`Socket.Alike`). A message that fits is answered the same on both, and leaves them alike
  (`Socket.exchange_alike`): the status is cleared before and set by the answer, the slots that the
  firmware reads were written before, and those that the driver reads were written by the answer. The
  one thing that tells the sockets apart afterwards are words in the log that no argument covered
  (`SameMessage`).
-/

import FirmwareMailbox.Proofs.Simulation.Firmware
import Mathlib.Data.List.Forall2

namespace FirmwareMailbox

/-- Messages of a log: numbers with the words in the slots. -/
abbrev Firmware.Log : Type := List (UInt32 × List UInt32)

/-- Two entries of a log are of one message, and its arguments are the same words. -/
def SameMessage (e e' : UInt32 × List UInt32) : Prop :=
  ∃ id : MessageId, e.1 = id.number ∧ e'.1 = id.number ∧
    e.2.take id.argumentCount = e'.2.take id.argumentCount

namespace Firmware

variable {old : Log} {f f' g : Firmware} {arg : UInt32} {id : MessageId} {ws : List UInt32}

/-- The firmware is the same, but for words that were in unwritten slots when a message was logged
    after `old`. -/
structure Alike (old : Log) (f f' : Firmware) : Prop where
  settings : f' = { f with log := f'.log }
  logs : ∃ new new', f.log = old ++ new ∧ f'.log = old ++ new' ∧ List.Forall₂ SameMessage new new'

theorem Alike.refl (f : Firmware) : Alike f.log f f := ⟨rfl, [], [], by simp, by simp, .nil⟩

theorem perform_log_eq (h : f.perform arg id = .ok (ws, g)) : g.log = f.log := by
  have hl : f.perform arg id = (f.perform arg id).map fun p => (p.1, { p.2 with log := f.log }) :=
    perform_log f.log
  rw [h] at hl
  exact congrArg (fun p => p.2.log) (Except.ok.inj hl)

/-- The answer goes by the settings, whatever is in the log. -/
theorem respond_log (l : Log) (id : MessageId) : { f with log := l }.respond id.number arg =
    (f.respond id.number arg).map fun p => (p.1, { p.2 with log := l }) := by
  rw [respond_number, respond_number, perform_log]
  show (if !f.knows id.number || f.refused.contains id.number then _ else _) = _
  split <;> rfl

theorem respond_ok (h : f.respond id.number arg = .ok (ws, g)) :
    ws.length = id.responseCount ∧ g.log = f.log ∧ g.forcedStatus = f.forcedStatus := by
  rw [respond_number] at h
  split at h
  · cases h
  · exact ⟨(perform_ok h).1, perform_log_eq h, (perform_ok h).2.forced⟩

theorem perform_error {code : UInt32} (h : f.perform arg id = .error code) : code = Status.invalidArgument := by
  cases id
  case setBoostLimit | getBoostLimit | setXgmiLinkWidth | setDfPstate | setNbioDpmLevel =>
    simp only [perform] at h
    split at h <;> cases h
    rfl
  all_goals cases h

/-- No refusal looks like an answer. -/
theorem respond_error {code : UInt32} (h : f.respond id.number arg = .error code) : code ≠ Status.ok := by
  rw [respond_number] at h
  split at h
  · cases h
    decide
  · rw [perform_error h]
    decide

end Firmware

namespace Simulation.Socket

variable {old : Firmware.Log} {s s' : Socket} {m : Message}

/-- Nothing but leftovers of exchanges tells the sockets apart. The firmware does not claim to have
    answered where it did not. -/
structure Alike (old : Firmware.Log) (s s' : Socket) : Prop where
  registers : ∀ a, ¬ InMailbox a → s.registers.get a = s'.registers.get a
  firmware : s.firmware.Alike old s'.firmware
  honest : s.firmware.forcedStatus ≠ some Status.ok

theorem Alike.settings (h : s.Alike old s') :
    s'.firmware = { s.firmware with log := s'.firmware.log } := h.firmware.settings

theorem Alike.polled (h : s.Alike old s') (n : Nat) : (s.polled n).Alike old (s'.polled n) := by
  refine ⟨h.registers, ⟨?_, h.firmware.logs⟩, h.honest⟩
  simp only [Socket.polled]
  rw [h.settings]

/-- The words that are logged begin with the arguments. -/
theorem take_slots_request (hm : m.Fits) (r : RegisterFile) :
    (request m r).slots.take m.id.argumentCount = m.args := by
  have ha := hm.sizes.1
  rw [← hm.1]
  refine List.ext_getElem ?_ fun i hi hi' => ?_
  · simp [RegisterFile.slots, ha]
  · simp only [List.getElem_take, RegisterFile.slots, List.getElem_map, List.getElem_range]
    rw [request_slot ha (by omega), List.getElem?_eq_getElem hi', Option.getD_some]

theorem Alike.told (h : s.Alike old s') (hm : m.Fits) : (s.told m).Alike old (s'.told m) := by
  obtain ⟨new, new', hn, hn', hsame⟩ := h.firmware.logs
  have hlogged : SameMessage (m.id.number, (request m s.registers).slots)
      (m.id.number, (request m s'.registers).slots) :=
    ⟨m.id, rfl, rfl, by rw [take_slots_request hm, take_slots_request hm]⟩
  refine ⟨?_, _, _, ?_, ?_, List.rel_append hsame (.cons hlogged .nil)⟩
  · simp only [Socket.told]
    rw [h.settings]
  · rw [Socket.told, hn, List.append_assoc]
  · rw [Socket.told, hn', List.append_assoc]

/-- The firmware is asked for what the message says, whatever was in the slots before. -/
theorem respond_request (hm : m.Fits) (r r' : RegisterFile) (f : Firmware) :
    f.respond m.id.number ((request m r').get (Register.slot 0)) =
      f.respond m.id.number ((request m r).get (Register.slot 0)) := by
  rw [request_slot hm.sizes.1 (by decide), request_slot hm.sizes.1 (by decide)]
  cases hargs : m.args with
  | nil =>
    rw [Firmware.respond_number, Firmware.respond_number,
      Firmware.perform_eq_of_argumentCount (by rw [← hm.1, hargs]; rfl)]
  | cons a as => rfl

/-- The answers differ in nothing but the log that goes with them. -/
theorem Alike.answer (h : s.Alike old s') (hm : m.Fits) : s'.answer m =
    (s.answer m).map fun p => (p.1, { p.2 with log := (s'.told m).log }) := by
  have hforced : s'.firmware.forcedStatus = s.firmware.forcedStatus := by rw [h.settings]
  unfold Socket.answer
  rw [hforced]
  split
  · rfl
  · rw [respond_request hm s.registers, (h.told hm).settings, Firmware.respond_log]

/-- Honest firmware that answers, answers in full, and logs nothing more. -/
theorem answer_ok (hs : s.firmware.forcedStatus ≠ some Status.ok) {ws : List UInt32} {f : Firmware}
    (h : s.answer m = .ok (ws, f)) : ws.length = m.id.responseCount ∧ f.log = (s.told m).log ∧
      f.forcedStatus ≠ some Status.ok := by
  unfold answer at h
  split at h
  · cases h
  · obtain ⟨hl, hlog, hf⟩ := Firmware.respond_ok h
    exact ⟨hl, hlog, hf ▸ hs⟩

theorem answer_error (hs : s.firmware.forcedStatus ≠ some Status.ok) {code : UInt32}
    (h : s.answer m = .error code) : code ≠ Status.ok := by
  unfold answer at h
  split at h
  · cases h
    rintro rfl
    exact hs ‹_›
  · exact Firmware.respond_error h

/-- Firmware that answers the same words leaves the same in the registers: outside the mailboxes, in the
    status, and if there is a response, in the slots that the driver reads. -/
theorem started_registers (hm : m.Fits) (hreg : ∀ a, ¬ InMailbox a → s.registers.get a = s'.registers.get a)
    (hstalled : s'.firmware.stalled = s.firmware.stalled)
    (hans : (s.answer m).map Prod.fst = (s'.answer m).map Prod.fst)
    (hs : s.firmware.forcedStatus ≠ some Status.ok) :
    (∀ a, ¬ InMailbox a → (s.started m).registers.get a = (s'.started m).registers.get a) ∧
    (s.started m).registers.get Register.status = (s'.started m).registers.get Register.status ∧
    ((s.started m).registers.get Register.status = Status.ok → ∀ i < m.responseLength,
      (s.started m).registers.get (Register.slot i) = (s'.started m).registers.get (Register.slot i)) := by
  obtain ⟨ha, hr⟩ := hm.sizes
  have hother : ∀ a, ¬ InMailbox a → (request m s.registers).get a = (request m s'.registers).get a :=
    fun a hn => by rw [request_other ha hn, request_other ha hn, hreg a hn]
  rw [started_eq, started_eq, hstalled]
  cases s.firmware.stalled with
  | true =>
    refine ⟨hother, ?_, fun hok => ?_⟩
    · exact (request_status ha).trans (request_status ha).symm
    · exact absurd ((request_status ha).symm.trans hok) (by decide)
  | false =>
    cases hx : s.answer m with
    | error code =>
      rw [hx] at hans
      cases hx' : s'.answer m with
      | ok p => rw [hx'] at hans; cases hans
      | error code' =>
      rw [hx'] at hans
      obtain rfl : code = code' := Except.error.inj hans
      have hset : ∀ r : RegisterFile, (r.set Register.status code).get Register.status = code :=
        fun r => by rw [RegisterFile.get_set, if_pos rfl]
      refine ⟨fun a hn => ?_, ?_, fun hok => ?_⟩
      · have hne : a ≠ Register.status := fun he => hn (Or.inl he)
        show (RegisterFile.set _ _ _).get a = (RegisterFile.set _ _ _).get a
        rw [RegisterFile.get_set, RegisterFile.get_set, if_neg hne, if_neg hne, hother a hn]
      · exact (hset _).trans (hset _).symm
      · exact absurd ((hset _).symm.trans hok) (answer_error hs hx)
    | ok p =>
      obtain ⟨ws, f⟩ := p
      rw [hx] at hans
      cases hx' : s'.answer m with
      | error code => rw [hx'] at hans; cases hans
      | ok p' =>
      obtain ⟨ws', f'⟩ := p'
      rw [hx'] at hans
      obtain rfl : ws = ws' := Except.ok.inj hans
      obtain ⟨hl, -, -⟩ := answer_ok hs hx
      have hws : ws.length ≤ Register.slotCount := by rw [hl, ← hm.2]; exact hr
      refine ⟨fun a hn => ?_, ?_, fun _ i hi => ?_⟩
      · exact (answered_other hws hn).trans ((hother a hn).trans (answered_other hws hn).symm)
      · exact (answered_status ws).trans (answered_status ws).symm
      · have hi : i < ws.length := by rw [hl, ← hm.2]; exact hi
        exact (answered_slot hws hi).trans (answered_slot hws hi).symm

/-- The firmware after it was started on a message. -/
theorem started_firmware (m : Message) (s : Socket) : (s.started m).firmware =
    if s.firmware.stalled then s.told m
    else
      match s.answer m with
      | .ok (_, f) => f
      | .error _ => s.told m := by
  rw [started_eq]
  split
  · rfl
  · cases s.answer m <;> rfl

/-- The firmware is started on the same message: the sockets stay alike, and if there is a response,
    the words that the driver reads are the same. -/
theorem Alike.started (h : s.Alike old s') (hm : m.Fits) : (s.started m).Alike old (s'.started m) ∧
    (s.started m).registers.get Register.status = (s'.started m).registers.get Register.status ∧
    ((s.started m).registers.get Register.status = Status.ok → ∀ i < m.responseLength,
      (s.started m).registers.get (Register.slot i) = (s'.started m).registers.get (Register.slot i)) := by
  have hstalled : s'.firmware.stalled = s.firmware.stalled := by rw [h.settings]
  have hans := h.answer hm
  obtain ⟨hother, hstatus, hslots⟩ := started_registers hm h.registers hstalled
    (by rw [hans]; cases s.answer m <;> rfl) h.honest
  refine ⟨⟨hother, ?_, ?_⟩, hstatus, hslots⟩
  · rw [started_firmware, started_firmware, hstalled, hans]
    cases s.firmware.stalled with
    | true => exact h.told hm
    | false =>
      cases hx : s.answer m with
      | error code => exact h.told hm
      | ok p =>
        refine ⟨rfl, ?_⟩
        show ∃ new new', p.2.log = old ++ new ∧ (s'.told m).log = old ++ new' ∧ _
        rw [(answer_ok h.honest hx).2.1]
        exact (h.told hm).logs
  · rw [started_firmware]
    cases s.firmware.stalled with
    | true => exact h.honest
    | false =>
      cases hx : s.answer m with
      | error code => exact h.honest
      | ok p => exact (answer_ok h.honest hx).2.2

/-- What the driver reads decides how an exchange ends. -/
theorem exchange_result
    (hstatus : (s.started m).registers.get Register.status = (s'.started m).registers.get Register.status)
    (hslots : (s.started m).registers.get Register.status = Status.ok → ∀ i < m.responseLength,
      (s.started m).registers.get (Register.slot i) = (s'.started m).registers.get (Register.slot i))
    (highest : Option MessageId) (polls : UInt32) :
    (s.exchange m highest polls).1 = (s'.exchange m highest polls).1 ∧ s.status m polls = s'.status m polls := by
  have hwait : s.status m polls = s'.status m polls := by rw [status, status, hstatus]
  refine ⟨?_, hwait⟩
  simp only [exchange]
  rw [← hwait]
  cases hf : Message.refusal? m.id highest polls (s.status m polls) with
  | some e => rfl
  | none =>
    have hok := Message.refusal?_eq_none_iff.mp hf
    refine congrArg Except.ok (List.map_congr_left fun i hi => hslots ?_ i (List.mem_range.mp hi))
    rw [status, awaited] at hok
    split at hok
    · exact absurd hok (by decide)
    · exact hok

/-- An exchange of a message that fits ends the same on both sockets and leaves them alike. -/
theorem exchange_alike (h : s.Alike old s') (hm : m.Fits) (highest : Option MessageId) (polls : UInt32) :
    (s.exchange m highest polls).1 = (s'.exchange m highest polls).1 ∧
      (s.exchange m highest polls).2.Alike old (s'.exchange m highest polls).2 ∧
      s.status m polls = s'.status m polls := by
  obtain ⟨halike, hstatus, hslots⟩ := h.started hm
  obtain ⟨hresult, hwait⟩ := exchange_result hstatus hslots highest polls
  refine ⟨hresult, ?_, hwait⟩
  simp only [exchange]
  rw [← hstatus]
  exact halike.polled _

end Simulation.Socket

end FirmwareMailbox
