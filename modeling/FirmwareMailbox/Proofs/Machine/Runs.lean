/-
  FirmwareMailbox.Proofs.Machine.Runs — what a job does to a process on a machine.

  `Runs M j w es r w'`: on machine `M`, the job `j` goes from `w` with the events `es` to the result
  `r` and the world `w'`. There is one such run from every world, and it comes apart where the job
  does (`runs_bind`). Unlike `Job.Yields`, it knows what the memory of the process answers.

  What is kept or only ever moves one way along a run is a relation between the world before it,
  its events and the world after it. If the relation composes, it holds of a program as soon as it
  holds of the parts (`Conducts`). So does a relation between two worlds that runs of the program leave
  as they found it, if it ends the same in both (`Parallel`).
-/

import FirmwareMailbox.Proofs.Program.Runs

namespace FirmwareMailbox

theorem Program.transcript_bind {α β σ : Type} (answer : (r : Request) → σ → r.Reply × σ)
    (p : Program α) (f : α → Program β) (s : σ) :
    transcript answer (p.bind f) s =
      transcript answer p s ++ transcript answer (f (run answer p s).1) (run answer p s).2 := by
  induction p generalizing s with
  | done a => rfl
  | ask r next ih => simp [bind, run, transcript, ih]

namespace World

variable {μ α β : Type} {M : Machine μ} {w w' : World μ} {es : List Event}

structure Runs (M : Machine μ) (j : Job α) (w : World μ) (es : List Event) (r : Except Error α)
    (w' : World μ) : Prop where
  run : World.run M j w = (r, w')
  transcript : World.transcript M j w = es

theorem runs (M : Machine μ) (j : Job α) (w : World μ) :
    Runs M j w (transcript M j w) (run M j w).1 (run M j w).2 := ⟨rfl, rfl⟩

theorem Runs.yields {j : Job α} {r : Except Error α} (h : Runs M j w es r w') : Job.Yields j es r := by
  obtain ⟨hr, rfl⟩ := h
  have hy := yields_transcript M j w
  rwa [hr] at hy

theorem Runs.disabled {j : Job α} {r : Except Error α} (h : Runs M j w es r w') :
    w'.memory.disabled = true ↔ w.memory.disabled = true ∨ ⟨.disable, ()⟩ ∈ es := by
  have hd := disabled_run M j.run w
  change (World.run M j w).2.memory.disabled = true ↔ _ ∨ _ ∈ World.transcript M j w at hd
  rwa [h.run, h.transcript] at hd

/-! ## One lemma for each way to make a job -/

/-- Whatever a job ends in is handed on to what catches it. -/
theorem runs_catch {j : Job α} {g : Except Error α → Program (Except Error β)} {r : Except Error β} :
    Runs M (ExceptT.mk (j.run.bind g)) w es r w' ↔
      ∃ fs gs x u, es = fs ++ gs ∧ Runs M j w fs x u ∧ Runs M (ExceptT.mk (g x)) u gs r w' := by
  have hr := Program.run_bind (answer M) j.run g w
  have ht := Program.transcript_bind (answer M) j.run g w
  constructor
  · rintro ⟨h, rfl⟩
    exact ⟨_, _, _, _, ht, runs M j w, hr.symm.trans h, rfl⟩
  · rintro ⟨fs, gs, x, u, rfl, ⟨h, rfl⟩, h', rfl⟩
    change Program.run (answer M) j.run w = _ at h
    rw [h] at hr ht
    exact ⟨hr.trans h', ht⟩

theorem runs_done {x r : Except Error α} :
    Runs M (ExceptT.mk (.done x)) w es r w' ↔ es = [] ∧ r = x ∧ w' = w := by
  constructor
  · rintro ⟨hr, rfl⟩
    obtain ⟨rfl, rfl⟩ := Prod.mk.inj hr
    exact ⟨rfl, rfl, rfl⟩
  · rintro ⟨rfl, rfl, rfl⟩
    exact ⟨rfl, rfl⟩

theorem runs_mk_ask {q : Request} {next : q.Reply → Program (Except Error α)} {r : Except Error α} :
    Runs M (ExceptT.mk (.ask q next)) w es r w' ↔ ∃ fs, es = ⟨q, (answer M q w).1⟩ :: fs ∧
      Runs M (ExceptT.mk (next (answer M q w).1)) (answer M q w).2 fs r w' := by
  constructor
  · rintro ⟨hr, rfl⟩
    exact ⟨_, rfl, hr, rfl⟩
  · rintro ⟨fs, rfl, hr, rfl⟩
    exact ⟨hr, rfl⟩

/-- Nothing follows an error, and what follows a value starts where the first part ended. -/
theorem runs_bind {j : Job α} {f : α → Job β} {r : Except Error β} :
    Runs M (j >>= f) w es r w' ↔
      (∃ e, r = .error e ∧ Runs M j w es (.error e) w') ∨
        ∃ fs gs a u, es = fs ++ gs ∧ Runs M j w fs (.ok a) u ∧ Runs M (f a) u gs r w' := by
  refine runs_catch.trans ?_
  constructor
  · rintro ⟨fs, gs, x, u, rfl, hj, hf⟩
    cases x with
    | ok a => exact Or.inr ⟨fs, gs, a, u, rfl, hj, hf⟩
    | error e =>
      obtain ⟨rfl, rfl, rfl⟩ := runs_done.mp hf
      exact Or.inl ⟨e, rfl, by rwa [List.append_nil]⟩
  · rintro (⟨e, rfl, hj⟩ | ⟨fs, gs, a, u, rfl, hj, hf⟩)
    · exact ⟨es, [], .error e, w', (List.append_nil _).symm, hj, runs_done.mpr ⟨rfl, rfl, rfl⟩⟩
    · exact ⟨fs, gs, .ok a, u, rfl, hj, hf⟩

theorem runs_lift {x r : Except Error α} :
    Runs M (liftM x) w es r w' ↔ es = [] ∧ r = x ∧ w' = w := runs_done

/-- What ends in a value has parts that end in values. -/
theorem runs_bind_ok {j : Job α} {f : α → Job β} {b : β} :
    Runs M (j >>= f) w es (.ok b) w' ↔
      ∃ fs gs a u, es = fs ++ gs ∧ Runs M j w fs (.ok a) u ∧ Runs M (f a) u gs (.ok b) w' :=
  runs_bind.trans (or_iff_right fun ⟨_, he, _⟩ => by cases he)

theorem runs_lift_bind_ok {x : Except Error α} {f : α → Job β} {b : β} :
    Runs M (liftM x >>= f) w es (.ok b) w' ↔ ∃ a, x = .ok a ∧ Runs M (f a) w es (.ok b) w' := by
  rw [runs_bind_ok]
  constructor
  · rintro ⟨fs, gs, a, u, rfl, hx, hf⟩
    obtain ⟨rfl, ha, rfl⟩ := runs_lift.mp hx
    exact ⟨a, ha.symm, hf⟩
  · rintro ⟨a, rfl, hf⟩
    exact ⟨[], es, a, w, rfl, runs_lift.mpr ⟨rfl, rfl, rfl⟩, hf⟩

theorem runs_pure {a : α} {r : Except Error α} :
    Runs M (pure a) w es r w' ↔ es = [] ∧ r = .ok a ∧ w' = w := runs_lift

theorem runs_throw {e : Error} {r : Except Error α} :
    Runs M (throw e) w es r w' ↔ es = [] ∧ r = .error e ∧ w' = w := runs_lift

theorem runs_ask {q : Request} {r : Except Error q.Reply} :
    Runs M (Job.ask q) w es r w' ↔
      es = [⟨q, (answer M q w).1⟩] ∧ r = .ok (answer M q w).1 ∧ w' = (answer M q w).2 := by
  constructor
  · rintro ⟨hr, rfl⟩
    obtain ⟨rfl, rfl⟩ := Prod.mk.inj hr
    exact ⟨rfl, rfl, rfl⟩
  · rintro ⟨rfl, rfl, rfl⟩
    exact ⟨rfl, rfl⟩

/-- A question has no other end than its reply. -/
theorem runs_ask_bind {q : Request} {f : q.Reply → Job β} {r : Except Error β} :
    Runs M (Job.ask q >>= f) w es r w' ↔ ∃ fs, es = ⟨q, (answer M q w).1⟩ :: fs ∧
      Runs M (f (answer M q w).1) (answer M q w).2 fs r w' := by
  rw [runs_bind]
  constructor
  · rintro (⟨e, rfl, hq⟩ | ⟨fs, gs, x, u, rfl, hq, hf⟩)
    · cases (runs_ask.mp hq).2.1
    · obtain ⟨rfl, hx, rfl⟩ := runs_ask.mp hq
      obtain rfl := Except.ok.inj hx
      exact ⟨gs, rfl, hf⟩
  · rintro ⟨fs, rfl, hf⟩
    exact Or.inr ⟨[_], fs, _, _, rfl, runs_ask.mpr ⟨rfl, rfl, rfl⟩, hf⟩

/-- What follows a reply to the lock. -/
def lockedRest (path : String) (body : Job α) : Except Error Unit → Program (Except Error α)
  | .error e => .done (.error e)
  | .ok _ => body.run.bind fun r => .ask (.unlock path) fun _ => .done r

theorem locked_eq (path : String) (body : Job α) :
    Job.locked path body = ExceptT.mk (.ask (.lock path) (lockedRest path body)) := by
  refine congrArg (fun next => ExceptT.mk (Program.ask (.lock path) next)) (funext fun x => ?_)
  cases x <;> rfl

/-- The body runs between the lock and its release, or the lock is not to be had. -/
theorem runs_locked {path : String} {body : Job α} {r : Except Error α} :
    Runs M (Job.locked path body) w es r w' ↔
      (∃ e m, M.lock path w.machine = (.error e, m) ∧ r = .error e ∧ w' = { w with machine := m } ∧
        es = [⟨.lock path, .error e⟩]) ∨
      ∃ fs m u, M.lock path w.machine = (.ok (), m) ∧
        es = ⟨.lock path, .ok ()⟩ :: (fs ++ [⟨.unlock path, ()⟩]) ∧
        Runs M body { w with machine := m } fs r u ∧
        w' = { u with machine := M.unlock path u.machine } := by
  rw [locked_eq, runs_mk_ask]
  rcases hl : M.lock path w.machine with ⟨x, m⟩
  simp only [answer, hl]
  cases x with
  | error e =>
    constructor
    · rintro ⟨fs, rfl, h⟩
      obtain ⟨rfl, rfl, rfl⟩ := runs_done.mp h
      exact Or.inl ⟨e, m, rfl, rfl, rfl, rfl⟩
    · rintro (⟨_, _, h, rfl, rfl, rfl⟩ | ⟨_, _, _, h, -⟩)
      · cases h
        exact ⟨[], rfl, runs_done.mpr ⟨rfl, rfl, rfl⟩⟩
      · cases h
  | ok _ =>
    constructor
    · rintro ⟨_, rfl, h⟩
      obtain ⟨fs, gs, x, u, rfl, hb, hu⟩ := runs_catch.mp h
      obtain ⟨_, rfl, hd⟩ := runs_mk_ask.mp hu
      obtain ⟨rfl, rfl, rfl⟩ := runs_done.mp hd
      exact Or.inr ⟨fs, m, u, rfl, rfl, hb, rfl⟩
    · rintro (⟨_, _, h, -⟩ | ⟨fs, _, u, h, rfl, hb, rfl⟩)
      · cases h
      · cases h
        refine ⟨_, rfl, runs_catch.mpr ⟨fs, _, r, u, rfl, hb, ?_⟩⟩
        exact runs_mk_ask.mpr ⟨[], rfl, runs_done.mpr ⟨rfl, rfl, rfl⟩⟩

/-- A job after one that ends in a value runs from where that one ended. -/
theorem run_bind_ok {j : Job α} {f : α → Job β} {a : α} {u : World μ} (h : run M j w = (.ok a, u)) :
    run M (j >>= f) w = run M (f a) u :=
  (runs_bind.mpr (Or.inr ⟨_, _, a, u, rfl, ⟨h, rfl⟩, runs M (f a) u⟩)).run

theorem run_bind_error {j : Job α} {f : α → Job β} {e : Error} {u : World μ}
    (h : run M j w = (.error e, u)) : run M (j >>= f) w = (.error e, u) :=
  (runs_bind.mpr (Or.inl ⟨e, rfl, ⟨h, rfl⟩⟩)).run

theorem run_locked {path : String} {body : Job α} {r : Except Error α} {m : μ} {u : World μ}
    (hl : M.lock path w.machine = (.ok (), m)) (hb : run M body { w with machine := m } = (r, u)) :
    run M (Job.locked path body) w = (r, { u with machine := M.unlock path u.machine }) :=
  (runs_locked.mpr (Or.inr ⟨_, m, u, hl, rfl, ⟨hb, rfl⟩, rfl⟩)).run

/-! ## What is kept along runs -/

/-- A relation between worlds with the events between them that holds where nothing happens, and of
    two stretches together if it holds of each. -/
structure Composes (T : World μ → List Event → World μ → Prop) : Prop where
  refl : ∀ w, T w [] w
  trans : ∀ {w es u fs v}, T w es u → T u fs v → T w (es ++ fs) v

/-- The relation holds of every run of the program. -/
def Conducts (M : Machine μ) (T : World μ → List Event → World μ → Prop) (p : Program α) : Prop :=
  ∀ w, T w (Program.transcript (answer M) p w) (Program.run (answer M) p w).2

namespace Conducts

variable {T : World μ → List Event → World μ → Prop}

theorem done (hT : Composes T) (a : α) : Conducts M T (.done a) := hT.refl

theorem bind (hT : Composes T) {p : Program α} {f : α → Program β} (hp : Conducts M T p)
    (hf : ∀ a, Conducts M T (f a)) : Conducts M T (p.bind f) := by
  intro w
  rw [Program.transcript_bind, Program.run_bind]
  exact hT.trans (hp w) (hf _ _)

theorem closed (hT : Composes T) : Program.Closed fun p => Conducts M T p := ⟨done hT, bind hT⟩

theorem job_bind (hT : Composes T) {j : Job α} {f : α → Job β} (hj : Conducts M T j.run)
    (hf : ∀ a, Conducts M T (f a).run) : Conducts M T (j >>= f).run :=
  (closed hT).job_bind hj hf

theorem of_runs {j : Job α} (h : ∀ w es r w', Runs M j w es r w' → T w es w') :
    Conducts M T j.run := fun w => h w _ _ _ (runs M j w)

theorem runs {j : Job α} (h : Conducts M T j.run) {r : Except Error α} (hr : Runs M j w es r w') :
    T w es w' := by
  obtain ⟨hr, rfl⟩ := hr
  have hw := h w
  change T w _ (run M j w).2 at hw
  rwa [hr] at hw

end Conducts

/-! ## What two runs have in common -/

/-- From worlds that are so related, the program ends the same, and the worlds are so related after it. -/
def Parallel (M : Machine μ) (R : World μ → World μ → Prop) (p : Program α) : Prop :=
  ∀ w w', R w w' → (Program.run (answer M) p w).1 = (Program.run (answer M) p w').1 ∧
    R (Program.run (answer M) p w).2 (Program.run (answer M) p w').2

namespace Parallel

variable {R : World μ → World μ → Prop}

theorem closed : Program.Closed fun p => Parallel M R p where
  done a w w' h := ⟨rfl, h⟩
  bind hp hf w w' h := by
    obtain ⟨hr, hR⟩ := hp w w' h
    rw [Program.run_bind, Program.run_bind, hr]
    exact hf _ _ _ hR

/-- Two runs of a job that end the same. -/
theorem of_runs {j : Job α} (h : ∀ w w', R w w' → ∃ r u u', run M j w = (r, u) ∧ run M j w' = (r, u') ∧ R u u') :
    Parallel M R j.run := by
  intro w w' hw
  obtain ⟨r, u, u', hr, hr', hu⟩ := h w w' hw
  change (run M j w).1 = (run M j w').1 ∧ R (run M j w).2 (run M j w').2
  rw [hr, hr']
  exact ⟨rfl, hu⟩

/-- If it is known how the job ends in one of the worlds, it ends so in the other. -/
theorem runs {j : Job α} (hj : Parallel M R j.run) {r : Except Error α} {u : World μ}
    (h : Runs M j w es r u) (hw : R w w') : ∃ u', Runs M j w' (transcript M j w') r u' ∧ R u u' := by
  obtain ⟨hr, hu⟩ := hj w w' hw
  change (run M j w).1 = (run M j w').1 at hr
  change R (run M j w).2 (run M j w').2 at hu
  rw [h.run] at hr hu
  refine ⟨(run M j w').2, ?_, hu⟩
  rw [show r = (run M j w').1 from hr]
  exact World.runs M j w'

end Parallel

end World

end FirmwareMailbox
