/-
  FirmwareMailbox.Program.Transcript — what can be seen of a run: its requests with their replies.

  `Yields p es a` says that `p`, given the replies in `es`, makes exactly the requests in `es` and
  ends in `a`; the replies may be any. `Begins p es` says that a run may have come as far as `es`.
  A run on a machine has one transcript, and the program yields it.
-/

import FirmwareMailbox.Program.Basic

namespace FirmwareMailbox

/-- A request and its reply. -/
structure Event where
  request : Request
  reply : request.Reply

namespace Program

variable {α β σ : Type}

inductive Yields : Program α → List Event → α → Prop where
  | done (a : α) : Yields (.done a) [] a
  | ask {r : Request} {next : r.Reply → Program α} {x : r.Reply} {es : List Event} {a : α} :
      Yields (next x) es a → Yields (.ask r next) (⟨r, x⟩ :: es) a

/-- A run may have got as far as these events. -/
def Begins (p : Program α) (es : List Event) : Prop := ∃ rest a, Yields p (es ++ rest) a

/-- The events of a run on a machine. -/
def transcript (answer : (r : Request) → σ → r.Reply × σ) : Program α → σ → List Event
  | .done _, _ => []
  | .ask r next, s => ⟨r, (answer r s).1⟩ :: transcript answer (next (answer r s).1) (answer r s).2

/-- What a program makes of the events of its run is what the run ends in. -/
theorem yields_transcript (answer : (r : Request) → σ → r.Reply × σ) (p : Program α) (s : σ) :
    Yields p (transcript answer p s) (run answer p s).1 := by
  induction p generalizing s with
  | done a => exact .done a
  | ask r next ih => exact .ask (ih _ _)

theorem Yields.bind {p : Program α} {f : α → Program β} {es fs : List Event} {a : α} {b : β}
    (h : Yields p es a) (h' : Yields (f a) fs b) : Yields (p.bind f) (es ++ fs) b := by
  induction h with
  | done a => exact h'
  | ask _ ih => exact .ask (ih h')

/-- A run of a program and of what follows it comes apart in one place. -/
theorem yields_bind_iff {p : Program α} {f : α → Program β} {es : List Event} {b : β} :
    Yields (p.bind f) es b ↔ ∃ fs gs a, es = fs ++ gs ∧ Yields p fs a ∧ Yields (f a) gs b := by
  constructor
  · intro h
    induction p generalizing es with
    | done a => exact ⟨[], es, a, rfl, .done a, h⟩
    | ask r next ih =>
      cases h with
      | @ask _ _ x es _ h =>
        obtain ⟨fs, gs, a, rfl, hp, hf⟩ := ih x h
        exact ⟨⟨r, x⟩ :: fs, gs, a, rfl, .ask hp, hf⟩
  · rintro ⟨fs, gs, a, rfl, hp, hf⟩
    exact hp.bind hf

end Program

end FirmwareMailbox
