/-
  FirmwareMailbox.Proofs.Program.Runs — runs of jobs, taken apart.

  Nothing follows an error. So a run of `j >>= f` is a failed run of `j`, or a run of `j` that ends
  in a value and a run of `f` on that value (`yields_bind`). One lemma for each way to make a job
  says what its runs are; a proof about a larger job takes its run apart with them and never opens
  `Program`.

  Many a property of programs holds of two programs one after the other as soon as it holds of both
  (`Program.Closed`); what is put together from programs that have it has it then, whatever it says. One
  that speaks of failures holds of jobs whose own checks fail as it says (`Job.Closed`).

  A machine gives every run its replies. What a process remembers changes only by its own requests,
  so a look at the events of a run tells whether the process gave up on the firmware in it
  (`disabled_run`).
-/

import FirmwareMailbox.Machine.Basic
import FirmwareMailbox.Program.Transcript

namespace FirmwareMailbox

namespace Program

variable {α β σ : Type}

theorem yields_done {a b : α} {es : List Event} : Yields (.done a) es b ↔ es = [] ∧ b = a := by
  constructor
  · intro h; cases h; exact ⟨rfl, rfl⟩
  · rintro ⟨rfl, rfl⟩; exact .done _

theorem yields_ask {r : Request} {next : r.Reply → Program α} {es : List Event} {b : α} :
    Yields (.ask r next) es b ↔ ∃ x fs, es = ⟨r, x⟩ :: fs ∧ Yields (next x) fs b := by
  constructor
  · intro h; cases h with | ask h => exact ⟨_, _, rfl, h⟩
  · rintro ⟨x, fs, rfl, h⟩; exact .ask h

theorem yields_request {r : Request} {es : List Event} {x : r.Reply} :
    Yields (request r) es x ↔ es = [⟨r, x⟩] := by
  constructor
  · intro h
    obtain ⟨y, fs, rfl, hd⟩ := yields_ask.mp h
    obtain ⟨rfl, rfl⟩ := yields_done.mp hd
    rfl
  · rintro rfl; exact .ask (.done _)

/-- The first event of a run on a machine has the machine's reply, and the rest is a run from the
    state it left. -/
theorem transcript_cons {answer : (r : Request) → σ → r.Reply × σ} {p : Program α} {s : σ}
    {e : Event} {es : List Event} (h : transcript answer p s = e :: es) :
    e.reply = (answer e.request s).1 ∧
      ∃ q : Program α, transcript answer q (answer e.request s).2 = es := by
  cases p with
  | done a => cases h
  | ask r next =>
    simp only [transcript, List.cons.injEq] at h
    obtain ⟨rfl, h⟩ := h
    exact ⟨rfl, next _, h⟩

/-- A kind of programs that has every program put together from programs of the kind. -/
structure Closed (C : ∀ {α : Type}, Program α → Prop) : Prop where
  done : ∀ {α : Type} (a : α), C (.done a)
  bind : ∀ {α β : Type} {p : Program α} {f : α → Program β}, C p → (∀ a, C (f a)) → C (p.bind f)

theorem Closed.job_bind {C : ∀ {α : Type}, Program α → Prop} (hC : Closed C) {j : ExceptT Error Program α}
    {f : α → ExceptT Error Program β} (hj : C j.run) (hf : ∀ a, C (f a).run) : C (j >>= f).run := by
  refine hC.bind hj fun x => ?_
  cases x with
  | ok a => exact hf a
  | error e => exact hC.done _

/-- After a check, there is only what follows if it succeeds. -/
theorem Closed.lift_bind {C : ∀ {α : Type}, Program α → Prop} (hC : Closed C) {x : Except Error α}
    {f : α → ExceptT Error Program β} (hf : ∀ a, x = .ok a → C (f a).run) :
    C ((liftM x : ExceptT Error Program α) >>= f).run := by
  cases x with
  | ok a => exact hf a rfl
  | error e => exact hC.done _

/-- Whatever the replies, the events of a run are so. -/
def Always (P : List Event → Prop) (p : Program α) : Prop := ∀ es a, Yields p es a → P es

theorem Always.closed {P : List Event → Prop} (hnil : P [])
    (happend : ∀ {es fs}, P es → P fs → P (es ++ fs)) : Closed fun p => Always P p where
  done a es b h := by
    obtain ⟨rfl, -⟩ := yields_done.mp h
    exact hnil
  bind hp hf es b h := by
    obtain ⟨fs, gs, a, rfl, hyp, hyf⟩ := yields_bind_iff.mp h
    exact happend (hp _ _ hyp) (hf a _ _ hyf)

end Program

namespace Job

variable {α β : Type}

/-- The run of a job with these events ends in `r`. -/
abbrev Yields (j : Job α) (es : List Event) (r : Except Error α) : Prop := Program.Yields j.run es r

variable {es : List Event}

theorem yields_pure {a : α} {r : Except Error α} :
    Yields (pure a) es r ↔ es = [] ∧ r = .ok a := Program.yields_done

theorem yields_throw {e : Error} {r : Except Error α} :
    Yields (throw e) es r ↔ es = [] ∧ r = .error e := Program.yields_done

theorem yields_lift {x r : Except Error α} : Yields (liftM x) es r ↔ es = [] ∧ r = x :=
  Program.yields_done

theorem yields_bind {j : Job α} {f : α → Job β} {r : Except Error β} :
    Yields (j >>= f) es r ↔
      (∃ e, r = .error e ∧ Yields j es (.error e)) ∨
        ∃ fs gs a, es = fs ++ gs ∧ Yields j fs (.ok a) ∧ Yields (f a) gs r := by
  refine Iff.trans Program.yields_bind_iff ?_
  constructor
  · rintro ⟨fs, gs, x, rfl, hj, hf⟩
    cases x with
    | ok a => exact Or.inr ⟨fs, gs, a, rfl, hj, hf⟩
    | error e =>
      obtain ⟨rfl, rfl⟩ := Program.yields_done.mp hf
      exact Or.inl ⟨e, rfl, by rwa [List.append_nil]⟩
  · rintro (⟨e, rfl, hj⟩ | ⟨fs, gs, a, rfl, hj, hf⟩)
    · exact ⟨es, [], .error e, by simp, hj, Program.yields_done.mpr ⟨rfl, rfl⟩⟩
    · exact ⟨fs, gs, .ok a, rfl, hj, hf⟩

/-- What ends in a value has parts that end in values. -/
theorem yields_bind_ok {j : Job α} {f : α → Job β} {b : β} :
    Yields (j >>= f) es (.ok b) ↔ ∃ fs gs a, es = fs ++ gs ∧ Yields j fs (.ok a) ∧ Yields (f a) gs (.ok b) :=
  yields_bind.trans (or_iff_right fun ⟨_, he, _⟩ => by cases he)

/-- After a check, there is what follows if it succeeds, or nothing. -/
theorem yields_lift_bind {x : Except Error α} {f : α → Job β} {r : Except Error β} :
    Yields (liftM x >>= f) es r ↔
      (∃ e, x = .error e ∧ es = [] ∧ r = .error e) ∨ ∃ a, x = .ok a ∧ Yields (f a) es r := by
  cases x with
  | error e =>
    constructor
    · intro h
      exact Or.inl ⟨e, rfl, yields_throw.mp h⟩
    · rintro (⟨_, he, h⟩ | ⟨_, he, -⟩) <;> cases he
      exact yields_throw.mpr h
  | ok a =>
    constructor
    · intro h
      exact Or.inr ⟨a, rfl, h⟩
    · rintro (⟨_, he, -⟩ | ⟨_, he, h⟩) <;> cases he
      exact h

theorem yields_ask {q : Request} {r : Except Error q.Reply} :
    Yields (ask q) es r ↔ ∃ x, es = [⟨q, x⟩] ∧ r = .ok x := by
  constructor
  · intro h
    obtain ⟨fs, gs, x, rfl, hq, hd⟩ := Program.yields_bind_iff.mp h
    obtain rfl := Program.yields_request.mp hq
    obtain ⟨rfl, rfl⟩ := Program.yields_done.mp hd
    exact ⟨x, rfl, rfl⟩
  · rintro ⟨x, rfl, rfl⟩
    exact .ask (.done _)

/-- A question has no other end than its reply. -/
theorem yields_ask_bind {q : Request} {f : q.Reply → Job β} {r : Except Error β} :
    Yields (ask q >>= f) es r ↔ ∃ x fs, es = ⟨q, x⟩ :: fs ∧ Yields (f x) fs r := by
  rw [yields_bind]
  constructor
  · rintro (⟨e, rfl, hq⟩ | ⟨fs, gs, x, rfl, hq, hf⟩)
    · obtain ⟨_, -, hx⟩ := yields_ask.mp hq
      cases hx
    · obtain ⟨y, rfl, hx⟩ := yields_ask.mp hq
      obtain rfl := Except.ok.inj hx
      exact ⟨x, gs, rfl, hf⟩
  · rintro ⟨x, fs, rfl, hf⟩
    exact Or.inr ⟨[⟨q, x⟩], fs, x, rfl, yields_ask.mpr ⟨x, rfl, rfl⟩, hf⟩

theorem yields_read {d : DeviceHandle} {o : UInt32} {r : Except Error UInt32} :
    Yields (read d o) es r ↔ es = [⟨.read d o, r⟩] := Program.yields_request

theorem yields_write {d : DeviceHandle} {o v : UInt32} {r : Except Error Unit} :
    Yields (write d o v) es r ↔ es = [⟨.write d o v, r⟩] := Program.yields_request

/-- The body runs between the lock and its release, or the lock is not to be had and there is no
    run of the body. -/
theorem yields_locked {path : String} {body : Job α} {r : Except Error α} :
    Yields (locked path body) es r ↔
      (∃ e, r = .error e ∧ es = [⟨.lock path, .error e⟩]) ∨
        ∃ fs, es = ⟨.lock path, .ok ()⟩ :: (fs ++ [⟨.unlock path, ()⟩]) ∧ Yields body fs r := by
  constructor
  · intro h
    obtain ⟨x, fs, rfl, hn⟩ := Program.yields_ask.mp h
    cases x with
    | error e =>
      obtain ⟨rfl, rfl⟩ := Program.yields_done.mp hn
      exact Or.inl ⟨e, rfl, rfl⟩
    | ok u =>
      change Program.Yields (body.run.bind fun x => (Program.request (.unlock path)).bind
        fun _ => .done x) fs r at hn
      obtain ⟨fs, gs, x, rfl, hb, hu⟩ := Program.yields_bind_iff.mp hn
      obtain ⟨_, hs, rfl, hd⟩ := Program.yields_ask.mp hu
      obtain ⟨rfl, rfl⟩ := Program.yields_done.mp hd
      exact Or.inr ⟨fs, rfl, hb⟩
  · rintro (⟨e, rfl, rfl⟩ | ⟨fs, rfl, hb⟩)
    · exact .ask (.done _)
    · exact .ask (hb.bind (.ask (.done _)))

/-- A word is missing where the answer has ended. -/
theorem word_eq_error {words : List UInt32} {i : Nat} {e : Error} (h : word words i = .error e) :
    words.length ≤ i ∧ e = .outOfBounds i := by
  unfold word at h
  split at h
  · cases h
  · rename_i hn
    cases h
    exact ⟨List.getElem?_eq_none_iff.mp hn, rfl⟩

end Job

/-! ## Kinds of jobs -/

/-- If the computation fails, its error is so. -/
def FailsWith {α : Type} (P : Error → Prop) (x : Except Error α) : Prop := ∀ e, x = .error e → P e

namespace FailsWith

variable {α β : Type} {P : Error → Prop}

theorem ok (a : α) : FailsWith P (.ok a : Except Error α) := fun e h => by cases h

theorem error {e : Error} (he : P e) : FailsWith P (.error e : Except Error α) :=
  fun _ h => Except.error.inj h ▸ he

theorem bind {x : Except Error α} {f : α → Except Error β} (hx : FailsWith P x)
    (hf : ∀ a, FailsWith P (f a)) : FailsWith P (x >>= f) := by
  cases x with
  | error e => exact .error (hx e rfl)
  | ok a => exact hf a

end FailsWith

/-- A kind of jobs that has every check that fails with errors of `P`, and every job put together from jobs
    of the kind. A check that comes last has to be so only for the values that the job before it ends in. -/
structure Job.Closed (P : Error → Prop) (C : ∀ {α : Type}, Job α → Prop) : Prop where
  lift : ∀ {α : Type} {x : Except Error α}, FailsWith P x → C (liftM x : Job α)
  bind : ∀ {α β : Type} {j : Job α} {f : α → Job β}, C j → (∀ a, C (f a)) → C (j >>= f)
  check : ∀ {α β : Type} {j : Job α} {f : α → Except Error β}, C j →
    (∀ es a, Yields j es (.ok a) → FailsWith P (f a)) → C (j >>= fun a => liftM (f a))

namespace Job.Closed

variable {P : Error → Prop} {C : ∀ {α : Type}, Job α → Prop} {α β : Type}

/-- It is enough that the kind has what follows a job for the values that the job ends in. -/
theorem of_bind_ok (hlift : ∀ {α : Type} {x : Except Error α}, FailsWith P x → C (liftM x : Job α))
    (hbind : ∀ {α β : Type} {j : Job α} {f : α → Job β}, C j →
      (∀ es a, Yields j es (.ok a) → C (f a)) → C (j >>= f)) : Closed P C where
  lift := hlift
  bind hj hf := hbind hj fun _ a _ => hf a
  check hj hf := hbind hj fun es a h => hlift (hf es a h)

variable (hC : Closed P C)

include hC

theorem pure (a : α) : C (Pure.pure a : Job α) := hC.lift (.ok a)

theorem throw {e : Error} (he : P e) : C (throw e : Job α) := hC.lift (.error he)

/-- After a check, there is only what follows if it succeeds. -/
theorem lift_bind {x : Except Error α} {f : α → Job β} (hx : FailsWith P x) (hf : ∀ a, x = .ok a → C (f a)) :
    C (liftM x >>= f) := by
  cases x with
  | ok a => exact hf a rfl
  | error e => exact hC.throw (hx e rfl)

theorem map {j : Job α} (f : α → β) (hj : C j) : C (f <$> j) := by
  rw [map_eq_pure_bind]
  exact hC.bind hj fun a => hC.pure (f a)

end Job.Closed

/-- A kind of programs that is closed has every check. -/
theorem Program.Closed.job {C : ∀ {α : Type}, Program α → Prop} (hC : Closed C) :
    Job.Closed (fun _ => True) fun j => C j.run where
  lift _ := hC.done _
  bind := hC.job_bind
  check hj _ := hC.job_bind hj fun _ => hC.done _

namespace World

variable {μ α : Type} (M : Machine μ)

/-- The events of a job's run in a process on a machine. -/
def transcript (j : Job α) (w : World μ) : List Event := Program.transcript (answer M) j.run w

theorem yields_transcript (j : Job α) (w : World μ) :
    Job.Yields j (transcript M j w) (run M j w).1 := Program.yields_transcript _ _ _

/-- A process has given up on the firmware once it asked to, and for no other reason. -/
theorem disabled_run (p : Program α) (w : World μ) :
    (Program.run (answer M) p w).2.memory.disabled = true ↔
      w.memory.disabled = true ∨ ⟨.disable, ()⟩ ∈ Program.transcript (answer M) p w := by
  induction p generalizing w with
  | done a => simp [Program.run, Program.transcript]
  | ask r next ih =>
    simp only [Program.run, Program.transcript, ih]
    cases r <;> simp [answer]

end World

end FirmwareMailbox
