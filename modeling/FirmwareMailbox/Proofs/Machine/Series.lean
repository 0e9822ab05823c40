/-
  FirmwareMailbox.Proofs.Machine.Series — jobs one after the other, up to the first failure.

  Of jobs that are numbered, each has a world to start from, a result and events: those it has if every
  job before it was done, whatever that one ended in (`Series.world`, `Series.result`, `Series.events`).
  So the pattern of failures is a function of the machine alone, and a loop that stops at the first
  failure is told by it: the loop gets as far as the first number that fails (`runs_mapM_error`), or to
  the end with the values of all (`runs_mapM_ok`), and there is no third way (`succeeds_or_fails`).
-/

import FirmwareMailbox.Proofs.Machine.Runs

namespace FirmwareMailbox.Series

open World

variable {μ α : Type} (M : Machine μ) (f : Nat → Job α) (w : World μ)

/-- The world before job `i`. -/
def world : Nat → World μ
  | 0 => w
  | i + 1 => (World.run M (f i) (world i)).2

def result (i : Nat) : Except Error α := (World.run M (f i) (world M f w i)).1

def events (i : Nat) : List Event := World.transcript M (f i) (world M f w i)

/-- The events of the first `n` jobs. -/
def trace (n : Nat) : List Event := (List.range n).flatMap (events M f w)

/-- The first `n` jobs end in values. -/
def Succeeds (n : Nat) : Prop := ∀ i < n, ∃ a, result M f w i = .ok a

/-- Job `k` is the first that fails. -/
def FailsAt (k : Nat) (e : Error) : Prop := Succeeds M f w k ∧ result M f w k = .error e

variable {M f w} {n k : Nat} {e : Error}

theorem runs (i : Nat) :
    Runs M (f i) (world M f w i) (events M f w i) (result M f w i) (world M f w (i + 1)) := ⟨rfl, rfl⟩

theorem trace_succ (n : Nat) : trace M f w (n + 1) = trace M f w n ++ events M f w n := by
  simp [trace, List.range_succ]

theorem Succeeds.succ {a : α} (h : Succeeds M f w n) (ha : result M f w n = .ok a) :
    Succeeds M f w (n + 1) := by
  intro i hi
  rcases Nat.lt_succ_iff_lt_or_eq.mp hi with hi | rfl
  · exact h i hi
  · exact ⟨a, ha⟩

theorem Succeeds.exists_values [Inhabited α] (h : Succeeds M f w n) :
    ∃ a : Nat → α, ∀ i < n, result M f w i = .ok (a i) := by
  refine ⟨fun i => (result M f w i).toOption.getD default, fun i hi => ?_⟩
  obtain ⟨a, ha⟩ := h i hi
  simp [ha, Except.toOption]

theorem succeeds_or_fails (n : Nat) : Succeeds M f w n ∨ ∃ k < n, ∃ e, FailsAt M f w k e := by
  induction n with
  | zero => exact .inl fun i hi => absurd hi (Nat.not_lt_zero i)
  | succ n ih =>
    rcases ih with hs | ⟨k, hk, hfail⟩
    · cases hn : result M f w n with
      | ok a => exact .inl (hs.succ hn)
      | error e => exact .inr ⟨n, Nat.lt_succ_self n, e, hs, hn⟩
    · exact .inr ⟨k, Nat.lt_succ_of_lt hk, hfail⟩

/-! ## Checks of the values -/

section

variable {β : Type} {g : Nat → α → Except Error β}

/-- To check a value asks for nothing. -/
theorem runs_check {j : Job α} {u : World μ} {es : List Event} {r : Except Error α} {g : α → Except Error β}
    (h : Runs M j w es r u) : Runs M (j >>= fun a => liftM (g a)) w es (r >>= g) u := by
  cases r with
  | error e => exact runs_bind.mpr (.inl ⟨e, rfl, h⟩)
  | ok a => exact runs_bind.mpr (.inr ⟨es, [], a, u, (List.append_nil es).symm, h, runs_lift.mpr ⟨rfl, rfl, rfl⟩⟩)

/-- So the jobs with their values checked go through the same worlds. -/
theorem world_check (i : Nat) : world M (fun i => f i >>= fun a => liftM (g i a)) w i = world M f w i := by
  induction i with
  | zero => rfl
  | succ i ih =>
    show (World.run M _ (world M _ w i)).2 = _
    rw [ih, (runs_check (runs (M := M) (f := f) (w := w) i)).run]

theorem result_check (i : Nat) :
    result M (fun i => f i >>= fun a => liftM (g i a)) w i = result M f w i >>= g i := by
  rw [result, world_check, (runs_check (runs (M := M) (f := f) (w := w) i)).run]

theorem trace_check (n : Nat) :
    trace M (fun i => f i >>= fun a => liftM (g i a)) w n = trace M f w n := by
  refine congrArg List.flatten (List.map_congr_left fun i _ => ?_)
  rw [events, world_check, (runs_check (runs (M := M) (f := f) (w := w) i)).transcript]

end

/-! ## The loop -/

/-- The loop takes one more job after those it has done. -/
theorem mapM_succ (f : Nat → Job α) (n : Nat) :
    (List.range (n + 1)).mapM f = (List.range n).mapM f >>= fun as => f n >>= fun a => pure (as ++ [a]) := by
  simp [List.range_succ]

/-- If all succeed, the loop hands out their values. -/
theorem runs_mapM_ok {a : Nat → α} (h : ∀ i < n, result M f w i = .ok (a i)) :
    Runs M ((List.range n).mapM f) w (trace M f w n) (.ok ((List.range n).map a)) (world M f w n) := by
  induction n with
  | zero => exact runs_pure.mpr ⟨rfl, rfl, rfl⟩
  | succ n ih =>
    have hall := ih fun i hi => h i (Nat.lt_succ_of_lt hi)
    have hlast := runs (M := M) (f := f) (w := w) n
    rw [h n (Nat.lt_succ_self n)] at hlast
    rw [mapM_succ, trace_succ, List.range_succ, List.map_append]
    refine runs_bind_ok.mpr ⟨_, _, _, _, rfl, hall, ?_⟩
    exact runs_bind_ok.mpr ⟨_, [], _, _, (List.append_nil _).symm, hlast, runs_pure.mpr ⟨rfl, rfl, rfl⟩⟩

/-- The loop ends at the first failure, with the error of it. -/
theorem runs_mapM_error [Inhabited α] (hk : k < n) (h : FailsAt M f w k e) :
    Runs M ((List.range n).mapM f) w (trace M f w (k + 1)) (.error e) (world M f w (k + 1)) := by
  induction n with
  | zero => exact absurd hk (Nat.not_lt_zero k)
  | succ n ih =>
    rw [mapM_succ]
    rcases Nat.lt_succ_iff_lt_or_eq.mp hk with hlt | rfl
    · exact runs_bind.mpr (.inl ⟨e, rfl, ih hlt⟩)
    · obtain ⟨a, ha⟩ := h.1.exists_values
      have hlast := runs (M := M) (f := f) (w := w) k
      rw [h.2] at hlast
      rw [trace_succ]
      exact runs_bind.mpr (.inr ⟨_, _, _, _, rfl, runs_mapM_ok ha, runs_bind.mpr (.inl ⟨e, rfl, hlast⟩)⟩)

end FirmwareMailbox.Series
