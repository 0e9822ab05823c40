/-
  FirmwareMailbox.Proofs.Message.Threads — threads that send through one mailbox.

  The threads of a process share its memory, and with it the flag that says that the process gave up on the
  firmware. Each thread sends one message. One step is one request of one thread, and the steps of all
  threads stand in one order, a schedule. Who asks for the lock while another thread has it waits, and its
  step changes nothing. A send reads the flag before it asks for the lock, and does not read it again once
  it has the lock.

  Proved, of the step that sets the flag and every schedule after it:
  (1) a thread that did not wait for the lock at that step accesses no device any more, so it does not
      write the message register (`Spared.access`, `Spared.untriggered`);
  (2) a thread that had not begun is refused at its first step (`Spared.refused`).
  A thread that waited for the lock is not spared: it read the flag in time, and triggers its message on
  the mailbox that the process gave up on (`late_triggers`).
-/

import FirmwareMailbox.Proofs.Machine.Sharing

namespace FirmwareMailbox

/-- What is left of a send. -/
abbrev Remainder : Type := Program (Except Error (List UInt32))

/-- Messages that threads send through one mailbox, each thread its own. -/
structure Mailbox (ι : Type) where
  config : Config
  device : ι → DeviceHandle
  message : ι → Message
  highest : ι → Option MessageId := fun _ => none

def Mailbox.sending {ι : Type} (b : Mailbox ι) (i : ι) : Sending :=
  { config := b.config, device := b.device i, message := b.message i, highest := b.highest i }

structure Threads (ι μ : Type) where
  /-- The machine and the memory of the process. -/
  world : World μ
  left : ι → Remainder
  /-- Who is between taking the lock and giving it back. -/
  holder : Option ι := none

variable {ι μ : Type} [DecidableEq ι]

namespace Threads

/-- A step of thread `i`, with its request and the reply: none if it is at its end, or waits. -/
def step (M : Machine μ) (i : ι) (k : Threads ι μ) : Option (Event × Threads ι μ) :=
  match k.left i with
  | .done _ => none
  | .ask q next =>
    if q.asksLock && k.holder.isSome then none
    else
      let a := World.answer M q k.world
      let e : Event := ⟨q, a.1⟩
      some (e, { world := a.2
                 left := Function.update k.left i (next a.1)
                 holder := if e.grantsLock then some i else if e.freesLock then none else k.holder })

/-- The steps of a schedule, which says whose step is next: every request with who made it, and how the
    threads stand in the end. -/
def run (M : Machine μ) : List ι → Threads ι μ → List (ι × Event) × Threads ι μ
  | [], k => ([], k)
  | i :: rest, k =>
    match k.step M i with
    | none => run M rest k
    | some (e, k') => ((i, e) :: (run M rest k').1, (run M rest k').2)

end Threads

/-- The threads after the steps of a schedule. -/
def Mailbox.after (M : Machine μ) (b : Mailbox ι) (w : World μ) (schedule : List ι) : Threads ι μ :=
  (Threads.run M schedule { world := w, left := fun i => (b.sending i).job.run }).2

/-- The next request is for the lock. -/
def Program.asksLock {α : Type} : Program α → Bool
  | .done _ => false
  | .ask q _ => q.asksLock

/-- Thread `i` waits for the lock. -/
def Threads.waits (k : Threads ι μ) (i : ι) : Bool := (k.left i).asksLock

/-- Thread `i` writes the message register: its address to the index register of a window, and with the
    thread's next request a word to the data register. -/
def Triggers (i : ι) (es : List (ι × Event)) : Prop :=
  ∃ a ∈ [Aperture.smn, Aperture.hsmp], ∃ d n,
    [Request.write d a.index Register.messageId, .write d a.data n] <:+:
      (es.filter fun x => x.1 = i).map fun x => x.2.request

/-- What comes after the flag was set, by a step from `k` to `k'`. -/
structure Spared (M : Machine μ) (b : Mailbox ι) (k k' : Threads ι μ) (rest : List ι) : Prop where
  /-- Only who waited for the lock when the flag was set accesses a device. -/
  access : ∀ x ∈ (k'.run M rest).1, x.2.request.isAccess = true → k.waits x.1 = true
  untriggered : ∀ i, k.waits i = false → ¬ Triggers i (k'.run M rest).1
  /-- Who had not begun when the flag was set fails at its first step. -/
  refused : ∀ i ∈ rest, k.left i = (b.sending i).job.run → (b.message i).checkSize = .ok () →
    (k'.run M rest).2.left i = .done (.error (.unsupported .disabled))

/-! ## Giving up comes last -/

namespace Program

variable {α β : Type}

/-- Nothing comes after giving up. -/
def Quits : Program α → Prop
  | .done _ => True
  | .ask q next => (q = .disable → ∀ x, ∃ a, next x = .done a) ∧ ∀ x, (next x).Quits

theorem Quits.bind {p : Program α} {f : α → Program β} (hp : Only (· ≠ .disable) p)
    (hf : ∀ a, (f a).Quits) : (p.bind f).Quits := by
  induction p with
  | done a => exact hf a
  | ask q next ih => exact ⟨fun hq => absurd hq hp.1, fun x => ih x (hp.2 x)⟩

theorem Only.quits {p : Program α} (hp : Only (· ≠ .disable) p) : p.Quits := by
  rw [← p.bind_done]
  exact Quits.bind hp fun _ => trivial

theorem Quits.job_bind {j : Job α} {f : α → Job β} (hj : Job.Only (· ≠ .disable) j)
    (hf : ∀ a, (f a).run.Quits) : (j >>= f).run.Quits := by
  refine Quits.bind hj fun x => ?_
  cases x with
  | ok a => exact hf a
  | error e => exact trivial

end Program

/-- The last that an exchange does under the lock is to give up, if it does. -/
theorem Message.converse_quits {m : Message} (hl : m.args.length ≤ Register.slotCount) (d : DeviceHandle)
    (c : Config) (highest : Option MessageId) : (m.converse c d highest).run.Quits := by
  have hC : Program.Closed fun p => Program.Only (· ≠ .disable) p := Program.Only.closed
  have hw : ∀ x v, Job.Only (· ≠ .disable) (Aperture.hsmp.write d x v) := fun x v =>
    Aperture.hsmp.only_write d x v nofun nofun
  have hr : ∀ x, Job.Only (· ≠ .disable) (Aperture.hsmp.read d x) := fun x =>
    Aperture.hsmp.only_read d x nofun nofun
  have hawait := hC.awaitStatus (fun _ => ⟨nofun, fun _ => trivial⟩) (hr Register.status) c.interval
  refine Program.Quits.job_bind (hw _ _) fun _ =>
    Program.Quits.job_bind (hC.writeSlots (fun _ _ _ => hw _ _) _ 0 (by omega)) fun _ =>
    Program.Quits.job_bind (hw _ _) fun _ => Program.Quits.job_bind (hawait _) fun status => ?_
  split
  · exact Program.Only.quits (hC.readSlots (fun _ _ => hr _) _ 0 (Nat.le_refl _))
  · split
    · exact ⟨fun _ _ => ⟨_, rfl⟩, fun _ => trivial⟩
    · exact trivial

/-! ## How far a send is -/

namespace Sending

variable {s : Sending} {b : Bool} {q : Request} {next : q.Reply → Remainder}

/-- What is left under the lock, and then the lock is given back. -/
def closing (s : Sending) (p : Remainder) : Remainder :=
  p.bind fun r => .ask (.unlock s.config.lockPath) fun _ => .done r

/-- How far a send is, by whether it has the lock and by what is left of it. -/
inductive Stage (s : Sending) : Bool → Remainder → Prop where
  | fresh : Stage s false s.job.run
  | waiting : s.message.checkSize = .ok () → Stage s false s.lockedJob.run
  | talking {p : Remainder} : Program.Only (fun q => q.isExchange = true ∧ q.isLocking = false) p →
      p.Quits → Stage s true (s.closing p)
  | ended (r : Except Error (List UInt32)) : Stage s false (.done r)

theorem checkSize_of_job_asks (h : .ask q next = s.job.run) : s.message.checkSize = .ok () := by
  cases hm : s.message.checkSize with
  | error e =>
    rw [job_run_error hm] at h
    cases h
  | ok _ => rfl

/-- A request and what it leads to. Only who has the lock gives it back or gives up, and who gave up has
    nothing left but to give it back. -/
theorem Stage.asked (hs : s.Stage b (.ask q next)) (x : q.Reply) :
    s.Stage ((⟨q, x⟩ : Event).grantsLock || b && !(⟨q, x⟩ : Event).freesLock) (next x) ∧
      ((⟨q, x⟩ : Event).freesLock = true → b = true) ∧
      (q = .disable → b = true ∧ ∃ r, next x = s.closing (.done r)) := by
  generalize hp : (Program.ask q next : Remainder) = p at hs
  cases hs with
  | fresh =>
    have hm := checkSize_of_job_asks hp
    rw [job_run hm] at hp
    cases hp
    refine ⟨?_, (fun h => by cases h), fun h => by cases h⟩
    cases x with
    | true => exact .ended _
    | false => exact .waiting hm
  | waiting hm =>
    rw [lockedJob, World.locked_eq] at hp
    cases hp
    refine ⟨?_, (fun h => by cases h), fun h => by cases h⟩
    cases x with
    | error e => exact .ended _
    | ok _ =>
      have hl := (Message.checkSize_eq_ok hm).1
      exact .talking (Message.converse_only hl _ _ _) (Message.converse_quits hl _ _ _)
  | @talking p ho hq =>
    cases p with
    | done r =>
      cases hp
      exact ⟨.ended r, fun _ => rfl, fun h => by cases h⟩
    | ask q' next' =>
      cases hp
      obtain ⟨hg, hf⟩ := Event.not_locking (e := ⟨q, x⟩) ho.1.2
      rw [hg, hf]
      refine ⟨.talking (ho.2 x) (hq.2 x), (fun h => by cases h), fun hd => ⟨rfl, ?_⟩⟩
      obtain ⟨r, hr⟩ := hq.1 hd x
      exact ⟨r, congrArg s.closing hr⟩
  | ended r => cases hp

/-- What is left makes no access, if the process gave up. -/
def Settled (s : Sending) (p : Remainder) : Prop :=
  p = s.job.run ∨ (∃ r, p = s.closing (.done r)) ∨ ∃ r, p = .done r

theorem Stage.settled {p : Remainder} (hs : s.Stage false p) (hp : p.asksLock = false) : s.Settled p := by
  cases hs with
  | fresh => exact Or.inl rfl
  | waiting hm =>
    rw [lockedJob, World.locked_eq] at hp
    cases hp
  | ended r => exact Or.inr (Or.inr ⟨r, rfl⟩)

theorem Settled.asked {μ : Type} {M : Machine μ} {w : World μ} (hp : s.Settled (.ask q next))
    (hd : w.memory.disabled = true) :
    q.isAccess = false ∧ s.Settled (next (World.answer M q w).1) := by
  rcases hp with hp | ⟨r, hp⟩ | ⟨r, hp⟩
  · have hm := checkSize_of_job_asks hp
    rw [job_run hm] at hp
    cases hp
    refine ⟨rfl, Or.inr (Or.inr ⟨.error (.unsupported .disabled), ?_⟩)⟩
    simp only [World.answer, hd, if_true]
  · cases hp
    exact ⟨rfl, Or.inr (Or.inr ⟨r, rfl⟩)⟩
  · cases hp

end Sending

/-! ## What a step keeps, and what a schedule keeps -/

theorem Triggers.access {i : ι} {es : List (ι × Event)} (h : Triggers i es) :
    ∃ x ∈ es, x.1 = i ∧ x.2.request.isAccess = true := by
  obtain ⟨a, -, d, n, hes⟩ := h
  obtain ⟨x, hx, hq⟩ := List.mem_map.mp (hes.subset (List.mem_cons_self ..))
  obtain ⟨hmem, hi⟩ := List.mem_filter.mp hx
  exact ⟨x, hmem, of_decide_eq_true hi, by rw [hq]; rfl⟩

theorem World.answer_disabled {M : Machine μ} {w : World μ} {q : Request} :
    (World.answer M q w).2.memory.disabled = true ↔ w.memory.disabled = true ∨ q = .disable := by
  cases q <;> simp [World.answer]

theorem Event.asksLock_of_grants {q : Request} {x : q.Reply} (h : (⟨q, x⟩ : Event).grantsLock = true) :
    q.asksLock = true := by
  cases q
  case lock => rfl
  all_goals cases h

namespace Threads

variable {M : Machine μ} {s : ι → Sending} {k k' : Threads ι μ} {i j : ι} {e : Event}

/-- All that a step does. -/
theorem step_eq_some (h : k.step M i = some (e, k')) :
    ∃ q next, k.left i = .ask q next ∧ (e.grantsLock = true → k.holder = none) ∧
      e = ⟨q, (World.answer M q k.world).1⟩ ∧ k'.world = (World.answer M q k.world).2 ∧
      k'.left = Function.update k.left i (next (World.answer M q k.world).1) ∧
      k'.holder = if e.grantsLock then some i else if e.freesLock then none else k.holder := by
  unfold step at h
  split at h
  · cases h
  · rename_i q next hl
    split at h
    · cases h
    · rename_i hq
      cases h
      refine ⟨q, next, hl, fun hg => ?_, rfl, rfl, rfl, rfl⟩
      simpa [Event.asksLock_of_grants hg] using hq

theorem step_other (h : k.step M j = some (e, k')) (hij : i ≠ j) : k'.left i = k.left i := by
  obtain ⟨q, next, -, -, -, -, hleft, -⟩ := step_eq_some h
  rw [hleft, Function.update_of_ne hij]

/-- Every thread is somewhere in its send, and inside if and only if it has the lock. -/
def Staged (s : ι → Sending) (k : Threads ι μ) : Prop :=
  ∀ i, ∃ b, (s i).Stage b (k.left i) ∧ (b = true ↔ k.holder = some i)

theorem Staged.step (hk : k.Staged s) (h : k.step M i = some (e, k')) : k'.Staged s := by
  obtain ⟨q, next, hl, hfree, rfl, -, hleft, hholder⟩ := step_eq_some h
  obtain ⟨b, hb, hbi⟩ := hk i
  rw [hl] at hb
  obtain ⟨hstage, hfrees, -⟩ := hb.asked (World.answer M q k.world).1
  rw [hbi] at hfrees
  generalize (⟨q, (World.answer M q k.world).1⟩ : Event) = e at *
  intro t
  rw [hleft, hholder]
  by_cases ht : t = i
  · subst ht
    refine ⟨_, by rwa [Function.update_self], ?_⟩
    by_cases hg : e.grantsLock = true
    · simp [hg]
    · by_cases hf : e.freesLock = true
      · simp [hg, hf]
      · simp [hg, hf, hbi]
  · obtain ⟨c, hc, hct⟩ := hk t
    refine ⟨c, by rwa [Function.update_of_ne ht], hct.trans ?_⟩
    -- the lock comes from nobody or goes to nobody, so `t` has it neither before nor after
    by_cases hg : e.grantsLock = true
    · simp [hg, hfree hg, Ne.symm ht]
    · by_cases hf : e.freesLock = true
      · simp [hg, hf, hfrees hf, Ne.symm ht]
      · simp [hg, hf]

theorem run_wait (h : k.step M i = none) (rest : List ι) : k.run M (i :: rest) = k.run M rest := by
  simp only [run, h]

theorem run_step (h : k.step M i = some (e, k')) (rest : List ι) :
    k.run M (i :: rest) = ((i, e) :: (k'.run M rest).1, (k'.run M rest).2) := by
  simp only [run, h]

theorem run_append (first rest : List ι) :
    (k.run M (first ++ rest)).2 = ((k.run M first).2.run M rest).2 := by
  induction first generalizing k with
  | nil => rfl
  | cons i first ih =>
    rw [List.cons_append]
    cases h : k.step M i with
    | none => rw [run_wait h, run_wait h, ih]
    | some x => rw [run_step h, run_step h, ih]

/-- What each step keeps, a schedule keeps. -/
theorem run_keeps {I : Threads ι μ → Prop} {Q : ι → Event → Prop}
    (hs : ∀ k i e k', I k → k.step M i = some (e, k') → Q i e ∧ I k') (schedule : List ι) (hk : I k) :
    (∀ x ∈ (k.run M schedule).1, Q x.1 x.2) ∧ I (k.run M schedule).2 := by
  induction schedule generalizing k with
  | nil =>
    refine ⟨fun x hx => ?_, hk⟩
    cases hx
  | cons i rest ih =>
    cases h : k.step M i with
    | none =>
      rw [run_wait h]
      exact ih hk
    | some x =>
      obtain ⟨hq, hk'⟩ := hs k i x.1 x.2 hk h
      obtain ⟨hrest, hend⟩ := ih hk'
      rw [run_step h]
      exact ⟨List.forall_mem_cons.mpr ⟨hq, hrest⟩, hend⟩

theorem step_disabled (h : k.step M i = some (e, k')) (hd : k.world.memory.disabled = true) :
    k'.world.memory.disabled = true := by
  obtain ⟨q, next, -, -, -, hw, -⟩ := step_eq_some h
  rw [hw, World.answer_disabled]
  exact Or.inl hd

/-- Whoever sets the flag has the lock, and has nothing left but to give it back. -/
theorem Staged.gives_up (hk : k.Staged s) (h : k.step M j = some (e, k'))
    (hclear : k.world.memory.disabled = false) (hset : k'.world.memory.disabled = true) :
    k.holder = some j ∧ (∃ next, k.left j = .ask .disable next) ∧
      ∃ r, k'.left = Function.update k.left j ((s j).closing (.done r)) := by
  obtain ⟨q, next, hl, -, -, hw, hleft, -⟩ := step_eq_some h
  rw [hw, World.answer_disabled, hclear] at hset
  obtain rfl : q = .disable := hset.resolve_left Bool.false_ne_true
  obtain ⟨b, hb, hbj⟩ := hk j
  rw [hl] at hb
  obtain ⟨htrue, r, hr⟩ := (hb.asked (World.answer M .disable k.world).1).2.2 rfl
  exact ⟨hbj.mp htrue, ⟨next, hl⟩, r, by rw [hleft, hr]⟩

/-- When the flag is set, there is nothing to access for whoever does not wait. -/
theorem Staged.settled (hk : k.Staged s) (h : k.step M j = some (e, k'))
    (hclear : k.world.memory.disabled = false) (hset : k'.world.memory.disabled = true)
    (hi : k.waits i = false) : (s i).Settled (k'.left i) := by
  obtain ⟨hj, -, r, hleft⟩ := hk.gives_up h hclear hset
  rw [hleft]
  by_cases hij : i = j
  · subst hij
    rw [Function.update_self]
    exact Or.inr (Or.inl ⟨r, rfl⟩)
  · rw [Function.update_of_ne hij]
    obtain ⟨b, hb, hbi⟩ := hk i
    have hfalse : b = false := by
      rw [Bool.eq_false_iff, Ne, hbi, hj, Option.some.injEq]
      exact Ne.symm hij
    subst hfalse
    exact hb.settled hi

/-- With the flag set, whoever has nothing to access will have nothing to access. -/
theorem run_settled {W : ι → Prop} (hd : k.world.memory.disabled = true)
    (hk : ∀ i, W i ∨ (s i).Settled (k.left i)) (rest : List ι) :
    ∀ x ∈ (k.run M rest).1, x.2.request.isAccess = true → W x.1 := by
  refine (run_keeps (I := fun k => k.world.memory.disabled = true ∧ ∀ i, W i ∨ (s i).Settled (k.left i))
    (Q := fun i e => e.request.isAccess = true → W i) (fun k i e k' hI h => ?_) rest ⟨hd, hk⟩).1
  obtain ⟨hd, hk⟩ := hI
  obtain ⟨q, next, hl, -, rfl, -, hleft, -⟩ := step_eq_some h
  have hi : W i ∨ q.isAccess = false ∧ (s i).Settled (next (World.answer M q k.world).1) :=
    (hk i).imp_right fun hs => Sending.Settled.asked (hl ▸ hs) hd
  refine ⟨fun hq => hi.resolve_right fun hs => ?_, step_disabled h hd, fun t => ?_⟩
  · exact Bool.false_ne_true (hs.1.symm.trans hq)
  · rw [hleft]
    by_cases ht : t = i
    · subst ht
      rw [Function.update_self]
      exact hi.imp_right fun hs => hs.2
    · rw [Function.update_of_ne ht]
      exact hk t

/-- Who is at the end stays there. -/
theorem run_done {r : Except Error (List UInt32)} (hk : k.left i = .done r) (rest : List ι) :
    (k.run M rest).2.left i = .done r := by
  refine (run_keeps (I := fun k => k.left i = .done r) (Q := fun _ _ => True)
    (fun k t e k' hI h => ⟨trivial, ?_⟩) rest hk).2
  refine (step_other h ?_).trans hI
  intro hit
  subst hit
  obtain ⟨q, next, hl, -⟩ := step_eq_some h
  rw [hI] at hl
  cases hl

/-- With the flag set, a send that begins is refused at once. -/
theorem run_refused (hm : (s i).message.checkSize = .ok ()) (hd : k.world.memory.disabled = true)
    (hk : k.left i = (s i).job.run) {rest : List ι} (hi : i ∈ rest) :
    (k.run M rest).2.left i = .done (.error (.unsupported .disabled)) := by
  induction rest generalizing k with
  | nil => cases hi
  | cons t rest ih =>
    by_cases hit : i = t
    · subst hit
      have hstep : ∃ e k', k.step M i = some (e, k') ∧
          k'.left i = .done (.error (.unsupported .disabled)) := by
        rw [Sending.job_run hm] at hk
        unfold step
        rw [hk]
        refine ⟨_, _, rfl, ?_⟩
        simp [World.answer, hd]
      obtain ⟨e, k', hstep, hdone⟩ := hstep
      rw [run_step hstep]
      exact run_done hdone rest
    · have hi' : i ∈ rest := (List.mem_cons.mp hi).resolve_left hit
      cases h : k.step M t with
      | none =>
        rw [run_wait h]
        exact ih hd hk hi'
      | some x =>
        rw [run_step h]
        exact ih (step_disabled h hd) ((step_other h hit).trans hk) hi'

end Threads

/-! ## The mailbox that the process gave up on -/

namespace Mailbox

variable {M : Machine μ} {b : Mailbox ι} {w : World μ}

theorem after_staged (first : List ι) : (b.after M w first).Staged b.sending := by
  refine (Threads.run_keeps (I := Threads.Staged b.sending) (Q := fun _ _ => True)
    (fun k i e k' hk h => ⟨trivial, hk.step h⟩) first fun i => ⟨false, .fresh, ?_⟩).2
  simp

/-- Once the flag was set, only a thread that waited for the lock at that time accesses a device any more,
    and a thread that had not begun is refused. -/
theorem disabling_spares (M : Machine μ) (b : Mailbox ι) (w : World μ) (first rest : List ι) (j : ι)
    (hclear : (b.after M w first).world.memory.disabled = false)
    (hset : (b.after M w (first ++ [j])).world.memory.disabled = true) :
    Spared M b (b.after M w first) (b.after M w (first ++ [j])) rest := by
  have hstaged := b.after_staged (M := M) (w := w) first
  -- the flag was not set by itself, so `j` did not wait
  obtain ⟨e, hstep⟩ : ∃ e, (b.after M w first).step M j = some (e, b.after M w (first ++ [j])) := by
    have happ : b.after M w (first ++ [j]) = ((b.after M w first).run M [j]).2 :=
      Threads.run_append first [j]
    cases h : (b.after M w first).step M j with
    | none =>
      rw [happ, Threads.run_wait h] at hset
      exact absurd (hclear.symm.trans hset) Bool.false_ne_true
    | some x =>
      rw [happ, Threads.run_step h]
      exact ⟨x.1, rfl⟩
  have haccess : ∀ x ∈ ((b.after M w (first ++ [j])).run M rest).1, x.2.request.isAccess = true →
      (b.after M w first).waits x.1 = true := by
    refine Threads.run_settled (s := b.sending) (W := fun i => (b.after M w first).waits i = true) hset
      (fun i => ?_) rest
    cases hi : (b.after M w first).waits i with
    | true => exact Or.inl rfl
    | false => exact Or.inr (hstaged.settled hstep hclear hset hi)
  refine ⟨haccess, fun i hi ht => ?_, fun i hi hfresh hm => ?_⟩
  · obtain ⟨x, hx, rfl, hacc⟩ := ht.access
    exact Bool.false_ne_true (hi.symm.trans (haccess x hx hacc))
  · obtain ⟨-, ⟨next, hj⟩, -⟩ := hstaged.gives_up hstep hclear hset
    have hij : i ≠ j := by
      intro hij
      subst hij
      rw [hj, Sending.job_run hm] at hfresh
      cases hfresh
    exact Threads.run_refused (s := b.sending) hm hset ((Threads.step_other hstep hij).trans hfresh) hi

end Mailbox

deriving instance DecidableEq for Request

namespace Simulation

/-- A process that did not notice yet that the firmware of its machine never answers. -/
def stalled : World State :=
  ⟨ofPlans [⟨Usual.buses 0, Usual.buses 0, { interfaceVersion := 3, stalled := true }⟩] ⟨[]⟩, {}⟩

/-- Two threads, each with a test message for the first device. -/
def pings : Mailbox Bool := { config := config, device := fun _ => 0, message := fun _ => Message.ping }

/-- `false` sends its message and reads the status for the last time. -/
def untilTimeout : List Bool := List.replicate 23 false

/-- `true` comes too late to wait. -/
theorem pings_spared :
    (pings.after machine stalled (untilTimeout ++ [false])).world.memory.disabled = true ∧
      (∀ i, (pings.after machine stalled untilTimeout).waits i = false) ∧
      Spared machine pings (pings.after machine stalled untilTimeout)
        (pings.after machine stalled (untilTimeout ++ [false])) [true, false] := by
  have hclear : (pings.after machine stalled untilTimeout).world.memory.disabled = false := by
    decide +kernel
  have hset : (pings.after machine stalled (untilTimeout ++ [false])).world.memory.disabled = true := by
    decide +kernel
  exact ⟨hset, by decide +kernel,
    pings.disabling_spares machine stalled untilTimeout [true, false] false hclear hset⟩

/-- `true` reads the flag before all that. When `false` gives back the lock, `true` takes it and triggers
    its message, and the firmware has two of them. -/
theorem late_triggers :
    (pings.after machine stalled (true :: untilTimeout)).world.memory.disabled = false ∧
      (pings.after machine stalled (true :: untilTimeout ++ [false])).world.memory.disabled = true ∧
      Triggers true ((pings.after machine stalled (true :: untilTimeout ++ [false])).run machine
        (false :: List.replicate 8 true)).1 ∧
      (pings.after machine stalled (true :: untilTimeout ++ [false])).world.machine.sockets.map
        (·.firmware.triggered) = [[1]] ∧
      (pings.after machine stalled (true :: untilTimeout ++ false :: false :: List.replicate 8 true)
        ).world.machine.sockets.map (·.firmware.triggered) = [[1, 1]] := by
  refine ⟨by decide +kernel, by decide +kernel, ⟨Aperture.hsmp, by decide, 0, 1, by decide +kernel⟩,
    by decide +kernel, by decide +kernel⟩

end Simulation

end FirmwareMailbox
