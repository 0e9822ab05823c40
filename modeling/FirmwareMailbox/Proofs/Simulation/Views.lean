/-
  FirmwareMailbox.Proofs.Simulation.Views — sockets that look the same.

  A view leaves out some of what firmware holds, but not what decides whether it answers at all
  (`Firmware.View`). If firmware that looks the same gives answers to a message that look the same
  (`Firmware.Shows`), sockets that look the same outside their mailboxes do so in a whole exchange
  (`Socket.Kin.exchange`), whatever the mailboxes hold. If firmware looks the same after a message as
  before (`Firmware.Hides`), the socket does so after the exchange (`Socket.exchange_kin`).

  Two views matter. One leaves out the records that firmware keeps of its messages: every message shows as
  much of it, and a probe shows no change. The other leaves out all settings: no message changes what
  it shows, and that is all that a probe asks for.
-/

import FirmwareMailbox.Proofs.Simulation.Windows

namespace FirmwareMailbox

namespace Firmware

/-- A way to look at firmware that shows whether it answers, and not what it noted down. -/
structure View (ν : Firmware → Firmware) : Prop where
  stalled : ∀ {f g}, ν f = ν g → f.stalled = g.stalled
  forced : ∀ {f g}, ν f = ν g → f.forcedStatus = g.forcedStatus
  noted : ∀ f l n, ν { f with log := l, statusPolls := n } = ν f

/-- What is seen of an answer. -/
def seen (ν : Firmware → Firmware) (x : Except UInt32 (List UInt32 × Firmware)) :
    Except UInt32 (List UInt32 × Firmware) :=
  x.map fun p => (p.1, ν p.2)

/-- As far as one can see, firmware that looks the same answers the message the same. -/
def Shows (ν : Firmware → Firmware) (id : MessageId) : Prop :=
  ∀ {f g : Firmware} (arg : UInt32), ν f = ν g →
    seen ν (f.respond id.number arg) = seen ν (g.respond id.number arg)

/-- Firmware looks the same after it answered the message. -/
def Hides (ν : Firmware → Firmware) (id : MessageId) : Prop :=
  ∀ {f g : Firmware} {arg : UInt32} {ws : List UInt32}, f.respond id.number arg = .ok (ws, g) → ν g = ν f

/-! ## All but the records -/

/-- The firmware with no record of its messages. -/
def unrecorded (f : Firmware) : Firmware := { f with log := [], statusPolls := 0 }

theorem unrecorded_view : View unrecorded where
  stalled h := (congrArg stalled h :)
  forced h := (congrArg forcedStatus h :)
  noted _ _ _ := rfl

/-- The number of status reads decides nothing. -/
theorem perform_statusPolls (f : Firmware) (n : Nat) (id : MessageId) (arg : UInt32) :
    { f with statusPolls := n }.perform arg id =
      (f.perform arg id).map fun p => (p.1, { p.2 with statusPolls := n }) := by
  cases id
  case setBoostLimit => simp only [perform]; cases f.boostLimits.at? (arg >>> 16) <;> rfl
  case getBoostLimit => simp only [perform]; cases f.boostLimits.at? arg <;> rfl
  case setXgmiLinkWidth => simp only [perform]; split <;> rfl
  case setDfPstate => simp only [perform]; split <;> rfl
  case setNbioDpmLevel => simp only [perform]; split <;> rfl
  all_goals rfl

theorem respond_statusPolls (f : Firmware) (n : Nat) (id : MessageId) (arg : UInt32) :
    { f with statusPolls := n }.respond id.number arg =
      (f.respond id.number arg).map fun p => (p.1, { p.2 with statusPolls := n }) := by
  rw [respond_number, respond_number, perform_statusPolls]
  show (if !f.knows id.number || f.refused.contains id.number then _ else _) = _
  split <;> rfl

theorem seen_respond_unrecorded (f : Firmware) (id : MessageId) (arg : UInt32) :
    seen unrecorded (f.unrecorded.respond id.number arg) = seen unrecorded (f.respond id.number arg) := by
  have hu : f.unrecorded = { ({ f with log := [] } : Firmware) with statusPolls := 0 } := rfl
  rw [hu, respond_statusPolls, respond_log]
  cases f.respond id.number arg <;> rfl

theorem unrecorded_shows (id : MessageId) : Shows unrecorded id := by
  intro f g arg h
  change f.unrecorded = g.unrecorded at h
  rw [← seen_respond_unrecorded f, ← seen_respond_unrecorded g, h]

/-! ## What probes ask for -/

/-- What decides whether and how probes are answered. -/
def core (f : Firmware) : Firmware where
  interfaceVersion := f.interfaceVersion
  version := f.version
  stalled := f.stalled
  refused := f.refused
  forcedStatus := f.forcedStatus

theorem core_view : View core where
  stalled h := (congrArg stalled h :)
  forced h := (congrArg forcedStatus h :)
  noted _ _ _ := rfl

/-- A probe is answered from the core and changes nothing. -/
theorem perform_probe {id : MessageId} (hid : id ∈ Capabilities.probes) (arg : UInt32) :
    ∃ words : Firmware → List UInt32, ∀ f : Firmware, f.perform arg id = .ok (words f.core, f) := by
  rcases List.mem_cons.mp hid with rfl | hid
  · exact ⟨fun _ => [arg + 1], fun _ => rfl⟩
  rcases List.mem_cons.mp hid with rfl | hid
  · exact ⟨fun f => [f.version], fun _ => rfl⟩
  rw [List.mem_singleton.mp hid]
  exact ⟨fun f => [f.interfaceVersion], fun _ => rfl⟩

theorem core_shows {id : MessageId} (hid : id ∈ Capabilities.probes) : Shows core id := by
  intro f g arg h
  change f.core = g.core at h
  obtain ⟨words, hwords⟩ := perform_probe hid arg
  have hcore (f : Firmware) : seen core (f.respond id.number arg) =
      if !f.core.knows id.number || f.core.refused.contains id.number then .error Status.invalidMessage
      else .ok (words f.core, f.core) := by
    rw [respond_number, hwords]
    show seen core (if !f.knows id.number || f.refused.contains id.number then _ else _) =
      if !f.knows id.number || f.refused.contains id.number then _ else _
    split <;> rfl
  rw [hcore, hcore, h]

/-- No setting is part of the core. -/
theorem core_hides (id : MessageId) : Hides core id := by
  intro f g arg ws h
  rw [respond_number] at h
  split at h
  · cases h
  cases id
  case setBoostLimit | getBoostLimit | setXgmiLinkWidth | setDfPstate | setNbioDpmLevel =>
    simp only [perform] at h
    split at h <;> cases h
    rfl
  all_goals
    cases h
    rfl

/-- A probe changes nothing at all. -/
theorem unrecorded_hides {id : MessageId} (hid : id ∈ Capabilities.probes) : Hides unrecorded id := by
  intro f g arg ws h
  obtain ⟨words, hwords⟩ := perform_probe hid arg
  rw [respond_number, hwords] at h
  split at h
  · cases h
  · cases h
    rfl

end Firmware

namespace Simulation.Socket

variable {ν : Firmware → Firmware} {s s' s'' : Socket} {m : Message}

/-- The sockets look the same but for their mailboxes. -/
structure Kin (ν : Firmware → Firmware) (s s' : Socket) : Prop where
  registers : ∀ a, ¬ InMailbox a → s.registers.get a = s'.registers.get a
  firmware : ν s.firmware = ν s'.firmware

theorem Kin.refl (s : Socket) : Kin ν s s := ⟨fun _ _ => rfl, rfl⟩

theorem Kin.symm (h : Kin ν s s') : Kin ν s' s := ⟨fun a ha => (h.registers a ha).symm, h.firmware.symm⟩

theorem Kin.trans (h : Kin ν s s') (h' : Kin ν s' s'') : Kin ν s s'' :=
  ⟨fun a ha => (h.registers a ha).trans (h'.registers a ha), h.firmware.trans h'.firmware⟩

/-- The firmware does not claim to have answered where it did not. -/
def Honest (s : Socket) : Prop := s.firmware.forcedStatus ≠ some Status.ok

variable (hν : Firmware.View ν)

include hν

theorem Kin.honest (h : Kin ν s s') (hs : s.Honest) : s'.Honest := by
  unfold Honest
  rwa [← hν.forced h.firmware]

theorem view_told (m : Message) (s : Socket) : ν (s.told m) = ν s.firmware :=
  hν.noted s.firmware _ s.firmware.statusPolls

theorem polled_kin (n : Nat) (s : Socket) : Kin ν s (s.polled n) :=
  ⟨fun _ _ => rfl, (hν.noted s.firmware s.firmware.log _).symm⟩

theorem Kin.answer (h : Kin ν s s') (hm : m.Fits) (hid : Firmware.Shows ν m.id) :
    Firmware.seen ν (s.answer m) = Firmware.seen ν (s'.answer m) := by
  unfold Socket.answer
  rw [hν.forced h.firmware]
  split
  · rfl
  · rw [respond_request hm s.registers s'.registers]
    exact hid _ ((view_told hν m s).trans (h.firmware.trans (view_told hν m s').symm))

/-- A message that shows no more than the view ends the same on both sockets and leaves them kin. -/
theorem Kin.exchange (h : Kin ν s s') (hm : m.Fits) (hid : Firmware.Shows ν m.id) (hs : s.Honest)
    (highest : Option MessageId) (polls : UInt32) :
    (s.exchange m highest polls).1 = (s'.exchange m highest polls).1 ∧
      Kin ν (s.exchange m highest polls).2 (s'.exchange m highest polls).2 ∧
      s.status m polls = s'.status m polls := by
  have hans := h.answer hν hm hid
  have hstalled := hν.stalled h.firmware
  have hwords : (s.answer m).map Prod.fst = (s'.answer m).map Prod.fst := by
    have hfst := congrArg (Except.map Prod.fst) hans
    cases hx : s.answer m <;> cases hx' : s'.answer m <;>
      simp [hx, hx', Firmware.seen, Except.map] at hfst ⊢
    · exact hfst
    · exact hfst
  obtain ⟨hother, hstatus, hslots⟩ := started_registers hm h.registers hstalled.symm hwords hs
  obtain ⟨hresult, hwait⟩ := exchange_result hstatus hslots highest polls
  refine ⟨hresult, ?_, hwait⟩
  have hstarted : Kin ν (s.started m) (s'.started m) := by
    refine ⟨hother, ?_⟩
    have htold : ν (s.told m) = ν (s'.told m) :=
      (view_told hν m s).trans (h.firmware.trans (view_told hν m s').symm)
    rw [started_firmware, started_firmware, hstalled]
    split
    · exact htold
    · cases hx : s.answer m <;> cases hx' : s'.answer m <;>
        simp [hx, hx', Firmware.seen, Except.map] at hans
      · exact htold
      · exact hans.2
  exact ((polled_kin hν _ _).symm.trans hstarted).trans (polled_kin hν _ _)

/-- A message that the view hides leaves the socket kin to what it was. -/
theorem exchange_kin (hm : m.Fits) (hid : Firmware.Hides ν m.id) (highest : Option MessageId)
    (polls : UInt32) (s : Socket) : Kin ν s (s.exchange m highest polls).2 := by
  refine Kin.trans ⟨fun a ha => ?_, ?_⟩ (polled_kin hν _ _)
  · show _ = (Socket.trigger m.id.number { s with registers := request m s.registers }).registers.get a
    rw [trigger_other _ _ ha, request_other hm.sizes.1 ha]
  · rw [started_firmware]
    split
    · exact (view_told hν m s).symm
    · cases hx : s.answer m with
      | error code => exact (view_told hν m s).symm
      | ok p =>
        have hf : (s.told m).respond m.id.number ((request m s.registers).get (Register.slot 0)) = .ok p := by
          unfold answer at hx
          split at hx
          · cases hx
          · exact hx
        exact ((hid hf).trans (view_told hν m s)).symm

end Simulation.Socket

end FirmwareMailbox
