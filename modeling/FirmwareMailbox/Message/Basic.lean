/-
  FirmwareMailbox.Message.Basic — a request to the firmware: which message, the words it carries,
  and how many words the answer has.
-/

import FirmwareMailbox.Message.Id

namespace FirmwareMailbox

structure Message where
  id : MessageId
  args : List UInt32 := []
  responseLength : Nat := 0
  deriving DecidableEq, Repr

end FirmwareMailbox
