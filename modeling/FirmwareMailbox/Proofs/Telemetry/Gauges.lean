/-
  FirmwareMailbox.Proofs.Telemetry.Gauges — a gauge has what its socket answered last.

  A process with an exporter refreshes it now and then and does other things in between (`Turn`); the machine
  answers as it likes all the while. What the exporter has after any turns is what it heard in its refreshes,
  query after query (`Heard.after`). So the gauges are what the last responses say, and 0 before the first.
-/

import FirmwareMailbox.Proofs.Session.Moves
import FirmwareMailbox.Proofs.Telemetry.Rounds

namespace FirmwareMailbox

/-- What may happen next to a process that has an exporter. -/
inductive Turn (μ : Type) where
  | collect
  | other (m : Move μ)

namespace Turn

variable {μ : Type} (M : Machine μ)

def move (e : Exporter) : Turn μ → Move μ
  | collect => .refresh e
  | other m => m

/-- The exporter after the turn. -/
def exporter (e : Exporter) (w : World μ) : Turn μ → Exporter
  | collect => (Program.run (World.answer M) e.refresh w).1
  | other _ => e

end Turn

namespace Exporter

variable {μ : Type} (M : Machine μ)

/-- The moves of the process, with the exporter as it is at each refresh. -/
def moves : List (Turn μ) → Exporter → World μ → List (Move μ)
  | [], _, _ => []
  | t :: rest, e, w => t.move e :: moves rest (t.exporter M e w) ((t.move e).world M w)

/-- The exporter after the turns. -/
def after : List (Turn μ) → Exporter → World μ → Exporter
  | [], e, _ => e
  | t :: rest, e, w => after rest (t.exporter M e w) ((t.move e).world M w)

variable {M}

/-- The queries of all refreshes, one after the other. -/
inductive Heard (M : Machine μ) : List (Turn μ) → Exporter → World μ → List Query → Prop
  | nil (e : Exporter) (w : World μ) : Heard M [] e w []
  | collect {rest : List (Turn μ)} {e : Exporter} {w : World μ} {rounds : List (List Query)}
      {qs : List Query} : Collected M e w rounds →
      Heard M rest (Turn.collect.exporter M e w) ((Turn.collect.move e).world M w) qs →
      Heard M (.collect :: rest) e w (rounds.flatten ++ qs)
  | other {m : Move μ} {rest : List (Turn μ)} {e : Exporter} {w : World μ} {qs : List Query} :
      Heard M rest e (m.world M w) qs → Heard M (.other m :: rest) e w qs

namespace Heard

variable {turns : List (Turn μ)} {e : Exporter} {w : World μ} {qs : List Query}

theorem exists_heard (M : Machine μ) (turns : List (Turn μ)) (e : Exporter) (w : World μ) :
    ∃ qs, Heard M turns e w qs := by
  induction turns generalizing e w with
  | nil => exact ⟨[], .nil e w⟩
  | cons t rest ih =>
    obtain ⟨qs, hqs⟩ := ih (t.exporter M e w) ((t.move e).world M w)
    cases t with
    | collect =>
      obtain ⟨rounds, hr⟩ := exists_collected M e w
      exact ⟨_, .collect hr hqs⟩
    | other m => exact ⟨qs, .other hqs⟩

/-- The exporter has heard these queries and nothing else. -/
theorem after (h : Heard M turns e w qs) : Exporter.after M turns e w = qs.foldl hear e := by
  induction h with
  | nil => rfl
  | @collect rest e w rounds qs hr _ ih =>
    rw [Exporter.after, ih, List.foldl_append, ← hr.exporter]
    rfl
  | other _ ih => exact ih

end Heard

/-- On any machine, for any session and any number of sockets, whatever the process does between the refreshes:
    each gauge of each socket has what the last response to its message from that socket has for it, and 0 if
    there was none. A query without a response counts for no gauge, a response for those of its own message
    and socket, and gauges with the same message have it from the same response. -/
theorem gauges_have_last_response (M : Machine μ) (s : Session) (n : Nat) (turns : List (Turn μ)) (w : World μ) :
    ∃ qs, Heard M turns { session := s, sockets := n } w qs ∧ ∀ (g : Metric) (socket : Nat),
      ((after M turns { session := s, sockets := n } w).gauge g socket).toNat =
        (lastResponse qs g.message socket).elim 0 g.field := by
  obtain ⟨qs, hqs⟩ := Heard.exists_heard M turns { session := s, sockets := n } w
  refine ⟨qs, hqs, fun g socket => ?_⟩
  rw [hqs.after, foldl_hear_gauge]
  rfl

end Exporter

end FirmwareMailbox
