/-
  FirmwareMailbox.Proofs.Session.Moves — whole runs of a process.

  A process takes steps and refreshes exporters, each with its own session; in between, the machine
  may turn into any other. `World.trace` are the events of such a run and `World.after` is the world
  it ends in. What composes holds of a run as soon as it holds of the gate, of every exchange and of
  forgetting, and of a machine that changes while the process does nothing (`Composes.moves`).
-/

import FirmwareMailbox.Proofs.Machine.Runs
import FirmwareMailbox.Proofs.Session.Assembled

namespace FirmwareMailbox

/-- What may happen next to a process on a machine with states `μ`. -/
inductive Move (μ : Type) where
  | step (s : Session) (st : Step)
  | refresh (e : Exporter)
  /-- The machine becomes another; the process does nothing. -/
  | change (f : μ → μ)

namespace Move

variable {μ : Type} (M : Machine μ)

def events : Move μ → World μ → List Event
  | step s st, w => World.transcript M (st.perform s) w
  | refresh e, w => Program.transcript (World.answer M) e.refresh w
  | change _, _ => []

/-- The world after a move. -/
def world : Move μ → World μ → World μ
  | step s st, w => (World.run M (st.perform s) w).2
  | refresh e, w => (Program.run (World.answer M) e.refresh w).2
  | change f, w => { w with machine := f w.machine }

end Move

namespace World

variable {μ α : Type} (M : Machine μ)

/-- The events of a run, move after move. -/
def trace : List (Move μ) → World μ → List Event
  | [], _ => []
  | m :: rest, w => m.events M w ++ trace rest (m.world M w)

/-- The world after a run. -/
def after : List (Move μ) → World μ → World μ
  | [], w => w
  | m :: rest, w => after rest (m.world M w)

/-- The results of operations done one after the other, and the world after them. -/
def performAll (s : Session) : List Operation → World μ → List (Except Error Answer) × World μ
  | [], w => ([], w)
  | op :: ops, w =>
    let (r, w) := World.run M (op.perform s) w
    let (rs, w) := performAll s ops w
    (r :: rs, w)

variable {M} {T : World μ → List Event → World μ → Prop}

/-- What holds of the gate and of every exchange holds of every move but to forget. -/
theorem Composes.move (hT : Composes T) (hg : ∀ s m?, Conducts M T (Session.gate s m?).run)
    (hx : ∀ c d m highest, Conducts M T (Message.exchange c d m highest).run)
    (hq : Conducts M T (Program.request .isDisabled)) (hc : ∀ w m, T w [] { w with machine := m })
    {m : Move μ} (hm : ∀ s, m ≠ .step s .forget) (w : World μ) : T w (m.events M w) (m.world M w) := by
  match m, hm with
  | .step s st, hm =>
    exact (Conducts.closed hT).assembled (hg s) (fun _ _ _ _ => hx _ _ _ _)
      (st.assembled s fun h => hm s (h ▸ rfl)) w
  | .refresh e, _ =>
    exact (Conducts.closed hT).refresh hq (fun s n m => (Conducts.closed hT).assembled (hg s)
      (fun _ _ _ _ => hx _ _ _ _) (Exporter.ask_assembled s n m)) e w
  | .change f, _ => exact hc w _

/-- What holds of every move holds of the run. -/
theorem Composes.all (hT : Composes T) (hm : ∀ (m : Move μ) w, T w (m.events M w) (m.world M w))
    (moves : List (Move μ)) (w : World μ) : T w (trace M moves w) (after M moves w) := by
  induction moves generalizing w with
  | nil => exact hT.refl w
  | cons m rest ih => exact hT.trans (hm m w) (ih _)

/-- What holds of the parts that a run is made of holds of the run. -/
theorem Composes.moves (hT : Composes T) (hg : ∀ s m?, Conducts M T (Session.gate s m?).run)
    (hx : ∀ c d m highest, Conducts M T (Message.exchange c d m highest).run)
    (hf : Conducts M T (Job.ask .forget).run) (hq : Conducts M T (Program.request .isDisabled))
    (hc : ∀ w m, T w [] { w with machine := m }) (moves : List (Move μ)) (w : World μ) :
    T w (trace M moves w) (after M moves w) := by
  refine hT.all (fun m w => ?_) moves w
  by_cases h : ∃ s, m = .step s .forget
  · obtain ⟨s, rfl⟩ := h
    exact Conducts.job_bind hT hf (f := fun _ => pure Answer.nothing) (fun _ => .done hT _) w
  · exact hT.move hg hx hq hc (fun s hs => h ⟨s, hs⟩) w

end World

end FirmwareMailbox
