/-
  FirmwareMailbox.Proofs.Simulation.Firmware — what simulated firmware answers.

  The firmware reads as many slots for a message as `argumentCount` says and answers as many words as
  `responseCount` says. It goes by its settings and never by its log. What it answers in its own time
  is what the socket holds when the status is read (`Socket.started_eq`): so a message that fits and
  that the firmware takes is answered with the firmware's own words (`Socket.exchange_ok`).
-/

import FirmwareMailbox.Proofs.Capability.Versions
import FirmwareMailbox.Proofs.Session.Assembled
import FirmwareMailbox.Proofs.Simulation.Mailbox

namespace FirmwareMailbox

namespace WordMap

variable {α β : Type}

theorem at?_cons (k : UInt32) (p : UInt32 × α) (m : WordMap α) :
    at? (p :: m) k = if k = p.1 then some p.2 else at? m k := by
  unfold at?
  rw [List.lookup_cons]
  by_cases h : k = p.1
  · rw [if_pos h, beq_iff_eq.mpr h]
  · rw [if_neg h, beq_eq_false_iff_ne.mpr h]

theorem at?_insert (key k : UInt32) (a : α) (m : WordMap α) :
    (insert key a m).at? k = if k = key then some a else m.at? k := by
  induction m with
  | nil => exact at?_cons k (key, a) []
  | cons p rest ih =>
    unfold insert
    split
    · exact at?_cons k (key, a) (p :: rest)
    split
    · rename_i h
      subst h
      rw [at?_cons, at?_cons]
      split <;> rfl
    · rename_i hne
      rw [at?_cons, at?_cons, ih]
      by_cases h : k = p.1
      · rw [if_pos h, if_pos h, if_neg fun hk => hne (hk.symm.trans h)]
      · rw [if_neg h, if_neg h]

theorem at?_map (f : α → β) (k : UInt32) (m : WordMap α) :
    at? (m.map fun p => (p.1, f p.2)) k = (m.at? k).map f := by
  induction m with
  | nil => rfl
  | cons p rest ih =>
    rw [List.map_cons, at?_cons, at?_cons, ih]
    split <;> rfl

end WordMap

namespace MessageId

theorem ofNumber?_number (id : MessageId) : ofNumber? id.number = some id := by
  cases id <;> decide

end MessageId

namespace Firmware

variable {f f' : Firmware} {arg : UInt32} {id : MessageId} {ws : List UInt32}

/-- Firmware of interface version `v` that answers every message as it is meant to be answered. -/
structure Willing (v : UInt32) (f : Firmware) : Prop where
  version : f.interfaceVersion = v
  stalled : f.stalled = false
  refused : f.refused = []
  forced : f.forcedStatus = none

/-- A message changes nothing of what decides whether messages are answered. -/
structure Steady (f f' : Firmware) : Prop where
  version : f'.interfaceVersion = f.interfaceVersion
  stalled : f'.stalled = f.stalled
  refused : f'.refused = f.refused
  forced : f'.forcedStatus = f.forcedStatus
  limits : ∀ k, (f'.boostLimits.at? k).isSome = (f.boostLimits.at? k).isSome

theorem Steady.willing {v : UInt32} (h : Steady f f') (hf : f.Willing v) : f'.Willing v :=
  ⟨h.version.trans hf.version, h.stalled.trans hf.stalled, h.refused.trans hf.refused,
    h.forced.trans hf.forced⟩

/-- What a message does, by message: its words are counted, and nothing but settings changes. -/
theorem perform_ok (h : f.perform arg id = .ok (ws, f')) :
    ws.length = id.responseCount ∧ Steady f f' := by
  have hrefl : Steady f f := ⟨rfl, rfl, rfl, rfl, fun _ => rfl⟩
  cases id
  case setSocketPowerLimit => cases h; exact ⟨rfl, rfl, rfl, rfl, rfl, fun _ => rfl⟩
  case setBoostLimit =>
    simp only [perform] at h
    split at h
    · rename_i old ho
      cases h
      refine ⟨rfl, rfl, rfl, rfl, rfl, fun k => ?_⟩
      show ((WordMap.insert _ _ f.boostLimits).at? k).isSome = _
      rw [WordMap.at?_insert]
      split
      · rename_i hk
        rw [hk, ho]
        rfl
      · rfl
    · cases h
  case setBoostLimitSocket =>
    cases h
    refine ⟨rfl, rfl, rfl, rfl, rfl, fun k => ?_⟩
    show (WordMap.at? (f.boostLimits.map fun p => (p.1, arg &&& 0xFFFF)) k).isSome = _
    rw [WordMap.at?_map (fun _ => arg &&& 0xFFFF), Option.isSome_map]
  case getBoostLimit =>
    simp only [perform] at h
    split at h <;> cases h
    exact ⟨rfl, hrefl⟩
  case setXgmiLinkWidth =>
    simp only [perform] at h
    split at h <;> cases h
    exact ⟨rfl, rfl, rfl, rfl, rfl, fun _ => rfl⟩
  case setDfPstate =>
    simp only [perform] at h
    split at h <;> cases h
    exact ⟨rfl, rfl, rfl, rfl, rfl, fun _ => rfl⟩
  case autoDfPstate => cases h; exact ⟨rfl, rfl, rfl, rfl, rfl, fun _ => rfl⟩
  case setNbioDpmLevel =>
    simp only [perform] at h
    split at h <;> cases h
    exact ⟨rfl, rfl, rfl, rfl, rfl, fun _ => rfl⟩
  all_goals
    cases h
    exact ⟨rfl, hrefl⟩

/-- A message without arguments does the same whatever the slots hold. -/
theorem perform_eq_of_argumentCount (h : id.argumentCount = 0) (a b : UInt32) :
    f.perform a id = f.perform b id := by
  cases id <;> first | rfl | cases h

/-- The log decides nothing. -/
theorem perform_log (l : List (UInt32 × List UInt32)) :
    { f with log := l }.perform arg id =
      (f.perform arg id).map fun p => (p.1, { p.2 with log := l }) := by
  cases id
  case setBoostLimit => simp only [perform]; cases f.boostLimits.at? (arg >>> 16) <;> rfl
  case getBoostLimit => simp only [perform]; cases f.boostLimits.at? arg <;> rfl
  case setXgmiLinkWidth => simp only [perform]; split <;> rfl
  case setDfPstate => simp only [perform]; split <;> rfl
  case setNbioDpmLevel => simp only [perform]; split <;> rfl
  all_goals rfl

theorem respond_number (f : Firmware) (id : MessageId) (arg : UInt32) : f.respond id.number arg =
    if !f.knows id.number || f.refused.contains id.number then .error Status.invalidMessage
    else f.perform arg id := by
  simp only [respond, MessageId.ofNumber?_number]

/-- Willing firmware performs the messages of its interface version, and the first three. -/
theorem Willing.respond {v : UInt32} (hf : f.Willing v) (hid : id.minVersion ≤ v) (arg : UInt32) :
    f.respond id.number arg = f.perform arg id := by
  have hk : f.knows id.number = true := by
    have hany := MessageId.le_highestOf_iff v id
    rw [decide_eq_true hid] at hany
    change (MessageId.highestOf v).any (fun h => id.number ≤ h.number) = true at hany
    simp only [knows, hf.version, hany, Bool.or_true]
  rw [respond_number, hk, hf.refused]
  rfl

end Firmware

namespace Simulation.Socket

/-- A register of the mailbox: status, message or slot. -/
def InMailbox (a : UInt32) : Prop :=
  a = Register.status ∨ a = Register.messageId ∨ ∃ i < Register.slotCount, a = Register.slot i

variable {m : Message} {r : RegisterFile} {s : Socket}

theorem request_status (ha : m.args.length ≤ Register.slotCount) :
    (request m r).get Register.status = Status.notReady := by
  have hne : ∀ i < Register.slotCount, Register.status ≠ Register.slot i :=
    fun i hi h => (Message.slot_ne i hi).2 h.symm
  rw [request, RegisterFile.get_set, if_neg (by decide),
    RegisterFile.get_setSlots_of_ne _ hne _ _ (by omega), RegisterFile.get_set, if_pos rfl]

theorem request_slot (ha : m.args.length ≤ Register.slotCount) {j : Nat} (hj : j < Register.slotCount) :
    (request m r).get (Register.slot j) = m.args[j]?.getD (r.get (Register.slot j)) := by
  rw [request, RegisterFile.get_set, if_neg (Message.slot_ne j hj).1,
    RegisterFile.get_setSlots _ _ _ (by omega) hj, if_pos (Nat.zero_le j), Nat.sub_zero,
    RegisterFile.get_set, if_neg (Message.slot_ne j hj).2]

theorem request_other (ha : m.args.length ≤ Register.slotCount) {a : UInt32} (h : ¬ InMailbox a) :
    (request m r).get a = r.get a := by
  have hne : ∀ i < Register.slotCount, a ≠ Register.slot i :=
    fun i hi he => h (Or.inr (Or.inr ⟨i, hi, he⟩))
  rw [request, RegisterFile.get_set, if_neg fun he => h (Or.inr (Or.inl he)),
    RegisterFile.get_setSlots_of_ne _ hne _ _ (by omega), RegisterFile.get_set,
    if_neg fun he => h (Or.inl he)]

/-- The firmware that found a message in the registers. -/
def told (m : Message) (s : Socket) : Firmware :=
  { s.firmware with log := s.firmware.log ++ [(m.id.number, (request m s.registers).slots)] }

/-- What it answers unless it hangs. -/
def answer (m : Message) (s : Socket) : Except UInt32 (List UInt32 × Firmware) :=
  match s.firmware.forcedStatus with
  | some code => .error code
  | none => (s.told m).respond m.id.number ((request m s.registers).get (Register.slot 0))

/-- The registers after an answer: the words in the slots and the status beside them. -/
def answered (ws : List UInt32) (r : RegisterFile) : RegisterFile :=
  (r.setSlots 0 ws).set Register.status Status.ok

/-- The socket that the driver waits for: without an answer, with one, or with a refusal. -/
theorem started_eq (m : Message) (s : Socket) : s.started m =
    if s.firmware.stalled then ⟨request m s.registers, s.told m⟩
    else
      match s.answer m with
      | .ok (ws, f) => ⟨answered ws (request m s.registers), f⟩
      | .error code => ⟨(request m s.registers).set Register.status code, s.told m⟩ := by
  unfold started trigger answer
  cases hs : s.firmware.stalled with
  | true => simp only [told, hs, if_true]
  | false =>
    simp only [hs, Bool.false_eq_true, if_false, told]
    cases s.firmware.forcedStatus with
    | some code => rfl
    | none => rfl

theorem answered_status (ws : List UInt32) : (answered ws r).get Register.status = Status.ok := by
  rw [answered, RegisterFile.get_set, if_pos rfl]

theorem answered_slot {ws : List UInt32} (hl : ws.length ≤ Register.slotCount) {j : Nat}
    (hj : j < ws.length) : (answered ws r).get (Register.slot j) = ws[j] := by
  rw [answered, RegisterFile.get_set, if_neg (Message.slot_ne j (by omega)).2,
    RegisterFile.get_setSlots _ _ _ (by omega) (by omega), if_pos (Nat.zero_le j), Nat.sub_zero,
    List.getElem?_eq_getElem hj, Option.getD_some]

theorem answered_other {ws : List UInt32} (hl : ws.length ≤ Register.slotCount) {a : UInt32}
    (h : ¬ InMailbox a) : (answered ws r).get a = r.get a := by
  have hne : ∀ i < Register.slotCount, a ≠ Register.slot i :=
    fun i hi he => h (Or.inr (Or.inr ⟨i, hi, he⟩))
  rw [answered, RegisterFile.get_set, if_neg fun he => h (Or.inl he),
    RegisterFile.get_setSlots_of_ne _ hne _ _ (by omega)]

/-- The response slots hold the words of the answer. -/
theorem response_answered {ws : List UInt32} (hl : ws.length ≤ Register.slotCount) :
    ((List.range ws.length).map fun i => (answered ws r).get (Register.slot i)) = ws := by
  refine List.ext_getElem (by simp) fun i hi hi' => ?_
  rw [List.getElem_map, List.getElem_range, answered_slot hl hi']

variable {m : Message} {s : Socket}

/-- A message that fits, sent to firmware that has it and takes its argument, is answered with the
    firmware's words, at the first look at the status. -/
theorem exchange_ok {v : UInt32} {ws : List UInt32} {f : Firmware} {polls : UInt32} (hm : m.Fits)
    (hf : s.firmware.Willing v) (hid : m.id.minVersion ≤ v) (hp : polls ≠ 0)
    (hperf : s.firmware.perform (m.args.headD 0) m.id = .ok (ws, f)) (highest : Option MessageId) :
    s.status m polls = Status.ok ∧
      ∃ r, s.exchange m highest polls = (.ok ws, ⟨r, { f with
        log := (s.told m).log, statusPolls := f.statusPolls + 1 }⟩) := by
  obtain ⟨ha, hr⟩ := hm.sizes
  have hlen : ws.length = m.responseLength := (Firmware.perform_ok hperf).1.trans hm.2.symm
  have hl : ws.length ≤ Register.slotCount := by rw [hlen]; exact hr
  have harg : (s.told m).perform ((request m s.registers).get (Register.slot 0)) m.id =
      .ok (ws, { f with log := (s.told m).log }) := by
    have hsame : (s.told m).perform ((request m s.registers).get (Register.slot 0)) m.id =
        (s.told m).perform (m.args.headD 0) m.id := by
      rw [request_slot ha (by decide)]
      cases hargs : m.args with
      | nil => exact Firmware.perform_eq_of_argumentCount (by rw [← hm.1, hargs]; rfl) _ _
      | cons a as => rfl
    rw [hsame, told, Firmware.perform_log, hperf]
    rfl
  have hans : s.answer m = .ok (ws, { f with log := (s.told m).log }) := by
    have htold : (s.told m).Willing v := ⟨hf.version, hf.stalled, hf.refused, hf.forced⟩
    rw [answer, hf.forced, ← harg]
    exact htold.respond hid _
  have hstart : s.started m =
      ⟨answered ws (request m s.registers), { f with log := (s.told m).log }⟩ := by
    rw [started_eq, hf.stalled, hans]
    rfl
  have hpolls : polls.toNat ≠ 0 := fun h => hp (UInt32.toNat_inj.mp h)
  have hstatus : s.status m polls = Status.ok := by
    rw [status, hstart, answered_status, awaited, if_neg hpolls]
  refine ⟨hstatus, answered ws (request m s.registers), ?_⟩
  rw [exchange, hstatus, Message.refusal?_eq_none_iff.mpr rfl, hstart, answered_status, Socket.polls,
    if_neg (by decide), Nat.min_eq_left (by omega), ← hlen, response_answered hl]
  rfl

end Simulation.Socket

end FirmwareMailbox
