/-
  FirmwareMailbox.Processor.Support — which processors have the mailbox: AMD families from 19h on,
  and of family 17h the models 30h to 3Fh.
-/

import FirmwareMailbox.Error.Basic

namespace FirmwareMailbox.Processor

def requireMailbox (p : Processor) : Except Error Unit :=
  if p.vendor ≠ .amd then .error (.unsupported (.vendor p))
  else if p.alwaysHasMailbox then .ok ()
  else if p.family = 0x17 ∧ 0x30 ≤ p.model ∧ p.model ≤ 0x3F then .ok ()
  else .error (.unsupported (.model p.family p.model))

end FirmwareMailbox.Processor
