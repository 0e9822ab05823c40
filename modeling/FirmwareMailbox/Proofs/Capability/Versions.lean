/-
  FirmwareMailbox.Proofs.Capability.Versions — which messages an interface version has.

  Two tables speak of it: the highest message of a version, which is what is looked at before a message
  is sent, and the version that a message came with. They agree for every version, 0 and the unknown
  ones included (`Capabilities.permits_iff`); so an older version permits no more than a newer one.
-/

import FirmwareMailbox.Capability.Basic

namespace FirmwareMailbox

namespace MessageId

/-- Every message came with a version that is known. -/
theorem minVersion_mem (id : MessageId) : 1 ≤ id.minVersion ∧ id.minVersion ≤ highestVersion := by
  cases id <;> decide

/-- The messages of an interface version are those that came with it or before. -/
theorem le_highestOf_iff (v : UInt32) (id : MessageId) :
    id.within (highestOf v) = decide (id.minVersion ≤ v) := by
  unfold highestOf
  by_cases h0 : v = 0
  · subst h0
    cases id <;> decide
  by_cases h1 : v = 1
  · subst h1
    cases id <;> decide
  by_cases h2 : v = 2
  · subst h2
    cases id <;> decide
  -- from 3 on every message is there
  rw [if_neg h0, if_neg h1, if_neg h2]
  have h3 : highestVersion ≤ v := by
    have h0' := mt UInt32.toNat_inj.mp h0
    have h1' := mt UInt32.toNat_inj.mp h1
    have h2' := mt UInt32.toNat_inj.mp h2
    refine UInt32.le_iff_toNat_le.mpr ?_
    simp only [highestVersion, UInt32.reduceToNat] at h0' h1' h2' ⊢
    omega
  have hle : id.minVersion ≤ v := UInt32.le_trans id.minVersion_mem.2 h3
  have hin : id.within (some getDdrBandwidth) = true := by cases id <;> decide
  rw [hin, decide_eq_true hle]

end MessageId

namespace Capabilities

/-- A message is permitted if and only if the version has it. -/
theorem permits_iff (caps : Capabilities) (id : MessageId) :
    caps.permits id = decide (id.minVersion ≤ caps.interfaceVersion) := by
  unfold permits highestMessage usedVersion
  rw [MessageId.le_highestOf_iff]
  split
  · rfl
  · rename_i h
    have h3 : MessageId.highestVersion ≤ caps.interfaceVersion := UInt32.le_of_lt (UInt32.not_le.mp h)
    have hle := id.minVersion_mem.2
    rw [decide_eq_true hle, decide_eq_true (UInt32.le_trans hle h3)]

/-- What is refused needs a newer version. -/
theorem require_eq (caps : Capabilities) (id : MessageId) : caps.require id =
    if id.minVersion ≤ caps.interfaceVersion then .ok ()
    else .error (.versionMismatch id id.minVersion caps.interfaceVersion) := by
  unfold require
  simp only [permits_iff, decide_eq_true_eq]

end Capabilities

end FirmwareMailbox
