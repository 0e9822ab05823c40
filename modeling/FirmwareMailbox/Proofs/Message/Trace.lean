/-
  FirmwareMailbox.Proofs.Message.Trace — the accesses of an exchange, in order.

  On any machine, an exchange that gets the lock accesses the registers of a transaction one after
  the other, each by its index first: the status is cleared, the arguments go to the slots, the
  message is started, the status is read until it is set, and only after an OK the response is read.
  A failed access is the last one and its error is the result; it is no reason to give up on the
  firmware.
-/

import Mathlib.Control.Monad.Basic
import FirmwareMailbox.Machine.Simulation
import FirmwareMailbox.Proofs.Message.Transaction

namespace FirmwareMailbox.Message

variable {μ : Type}

/-- The accesses of an exchange are those of a transaction, or of one up to the access that failed;
    the message register is stored once, and the words of a response are those read last. -/
theorem exchange_accesses (M : Machine μ) (w : World μ) (c : Config) (d : DeviceHandle) (m : Message)
    (highest : Option MessageId) (ha : m.args.length ≤ Register.slotCount)
    (hr : m.responseLength ≤ Register.slotCount) (hd : w.memory.disabled = false)
    (hl : (M.lock c.lockPath w.machine).1 = .ok ()) :
    let trace := (World.transcript M (m.exchange c d highest) w).filter Event.isAccess
    let ended := World.run M (m.exchange c d highest) w
    ∃ ss ws, m.Answered c.polls.toNat ss ws ∧
      (m.accesses ss ws).filter (·.address = Register.messageId) =
        [.store Register.messageId m.id.number] ∧
      (trace = (m.accesses ss ws).flatMap (Aperture.hsmp.events d) ∨
        ∃ e, Cut trace ((m.accesses ss ws).flatMap (Aperture.hsmp.events d)) e) ∧
      (∀ before x after e, trace = before ++ x :: after → x.error? = some e →
        after = [] ∧ ended.1 = .error e ∧ ended.2.memory.disabled = w.memory.disabled) ∧
      ∀ words, ended.1 = .ok words →
        trace = (m.accesses ss ws).flatMap (Aperture.hsmp.events d) ∧
          lastStatus ss = Status.ok ∧ words = ws := by
  have hm : m.checkSize = .ok () := if_neg (by omega)
  rcases hrun : World.run M (m.exchange c d highest) w with ⟨r, w'⟩
  obtain ⟨ss, ws, hA, h⟩ := exchange_run M hm hd hl hrun
  dsimp only
  generalize (World.transcript M (m.exchange c d highest) w).filter Event.isAccess = trace at h ⊢
  have hworks : ∀ x ∈ (m.accesses ss ws).flatMap (Aperture.hsmp.events d), x.error? = none :=
    fun x hx => (Aperture.of_mem_events hx).2
  refine ⟨ss, ws, hA, filter_messageId hA ha hr, ?_⟩
  rcases h with ⟨rfl, rfl, -⟩ | ⟨e, rfl, hc, hdis⟩
  · refine ⟨Or.inl rfl, fun before x after e ht hx => ?_, fun words hw => ⟨rfl, ?_⟩⟩
    · have hn := hworks x (by rw [ht]; simp)
      rw [hx] at hn
      cases hn
    · exact outcome_eq_ok_iff.mp hw
  · refine ⟨Or.inr ⟨e, hc⟩, fun before x after f ht hx => ?_, fun words hw => by cases hw⟩
    obtain ⟨rfl, rfl⟩ := hc.eq_of_error? hworks ht hx
    exact ⟨rfl, rfl, hdis.trans hd.symm⟩

/-- The test message with the argument 41. -/
def ping : Message := { id := .test, args := [41], responseLength := 1 }

/-- A process on a machine of one socket. -/
def pinging : World Simulation.State := ⟨Simulation.usual 1 3, {}⟩

theorem ping_accesses :
    (World.run Simulation.machine (ping.exchange Simulation.config 0 none) pinging).1 = .ok [42] ∧
      ∃ ss, lastStatus ss = Status.ok ∧
        (World.transcript Simulation.machine (ping.exchange Simulation.config 0 none) pinging).filter
          Event.isAccess = (ping.accesses ss [42]).flatMap (Aperture.hsmp.events 0) := by
  have hrun : (World.run Simulation.machine (ping.exchange Simulation.config 0 none) pinging).1 =
      .ok [42] := by
    decide +kernel
  obtain ⟨ss, ws, -, -, -, -, hok⟩ := exchange_accesses Simulation.machine pinging Simulation.config 0
    ping none (by decide) (by decide) rfl (by decide +kernel)
  obtain ⟨ht, hs, rfl⟩ := hok _ hrun
  exact ⟨hrun, ss, hs, ht⟩

end FirmwareMailbox.Message
