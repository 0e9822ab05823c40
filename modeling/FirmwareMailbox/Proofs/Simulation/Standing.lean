/-
  FirmwareMailbox.Proofs.Simulation.Standing — where processes stand that share a simulated machine, next
  to taking turns.

  Rules: those of `Crew` and `Turns`. A message has its turn when its process asks for the lock: from then
  on its process alone goes through the mailbox windows, so what is left of its exchange ends as the
  turn did (`Within`). A message that never comes to the lock has its turn when its process is done with it;
  it does not see the machine at all (`Before`). A discovery has no turn. Between the index and the look at
  the register, the index is right (`Discovering`): nobody writes another one to that device.

  `Together` says this of a crew and the turns; `Frame` is what a step of one process may do to the others,
  so that they stand where they stood (`Together.of_frame`).
-/

import FirmwareMailbox.Proofs.Simulation.Looking

namespace FirmwareMailbox

namespace Simulation

/-! ## A message before its turn -/

/-- What is left of sending a message before the lock is asked for, or when it is never asked for. -/
inductive Before (s : Sending) (memory : Memory) : Program (Except Error (List UInt32)) → Prop
  | start : Before s memory s.job.run
  | refused : s.message.checkSize = .ok () → memory.disabled = true →
      Before s memory (.done (.error (.unsupported .disabled)))
  | waiting : s.message.checkSize = .ok () → memory.disabled = false →
      Before s memory s.lockedJob.run

/-- What follows when the lock was granted. -/
abbrev unlocking (path : String) (r : Except Error (List UInt32)) : Program (Except Error (List UInt32)) :=
  .ask (.unlock path) fun _ => .done r

namespace Before

variable {s : Sending} {memory : Memory} {p : Program (Except Error (List UInt32))}

/-- It is over without a look at the machine, asks the process itself, or asks for the lock. -/
theorem cases (h : Before s memory p) :
    (∃ x, p = .done x ∧ ∀ m : State, World.run machine s.job ⟨m, memory⟩ = (x, ⟨m, memory⟩) ∧
        (World.transcript machine s.job ⟨m, memory⟩).any Event.grantsLock = false) ∨
      (∃ next, p = .ask .isDisabled next ∧ Before s memory (next memory.disabled)) ∨
      (s.message.checkSize = .ok () ∧ memory.disabled = false ∧ p = s.lockedJob.run) := by
  cases h with
  | start =>
    cases hm : s.message.checkSize with
    | error e =>
      refine Or.inl ⟨.error e, Sending.job_run_error hm, fun m => ?_⟩
      unfold World.run World.transcript
      rw [Sending.job_run_error hm]
      exact ⟨rfl, rfl⟩
    | ok _ =>
      refine Or.inr (Or.inl ⟨_, Sending.job_run hm, ?_⟩)
      cases hd : memory.disabled with
      | true => exact .refused hm hd
      | false => exact .waiting hm hd
  | refused hm hd =>
    refine Or.inl ⟨_, rfl, fun m => ?_⟩
    unfold World.run World.transcript
    rw [Sending.job_run hm]
    simp only [Program.run, Program.transcript, World.answer, hd, if_true]
    exact ⟨trivial, rfl⟩
  | waiting hm hd => exact Or.inr (Or.inr ⟨hm, hd, rfl⟩)

/-- A message that ends before the lock ends in the same on every machine, and leaves it as it is. -/
theorem unseen {x : Except Error (List UInt32)} (h : Before s memory (.done x)) (m : State) :
    World.run machine s.job ⟨m, memory⟩ = (x, ⟨m, memory⟩) ∧
      (World.transcript machine s.job ⟨m, memory⟩).any Event.grantsLock = false := by
  rcases h.cases with ⟨y, hy, hrun⟩ | ⟨next, hn, -⟩ | ⟨-, -, hn⟩
  · cases hy
    exact hrun m
  · cases hn
  · rw [Sending.lockedJob, World.locked_eq] at hn
    cases hn

end Before

/-- A message that comes to the lock is sent as what is left of it then. -/
theorem run_waiting {s : Sending} {w : World State} (hm : s.message.checkSize = .ok ())
    (hd : w.memory.disabled = false) :
    World.run machine s.job w = World.run machine s.lockedJob w ∧
      (World.transcript machine s.job w).any Event.grantsLock =
        (World.transcript machine s.lockedJob w).any Event.grantsLock := by
  unfold World.run World.transcript
  rw [Sending.job_run hm]
  simp only [Program.run, Program.transcript, World.answer, hd, Bool.false_eq_true, if_false, List.any_cons]
  exact ⟨trivial, rfl⟩

/-- Sending goes on with what the lock replied. -/
theorem run_lockedJob {s : Sending} {w : World State} {x : Except Error Unit} {m : State}
    (hl : machine.lock s.config.lockPath w.machine = (x, m)) :
    let rest := World.lockedRest s.config.lockPath (s.message.converse s.config s.device s.highest) x
    World.run machine s.lockedJob w = Program.run (World.answer machine) rest { w with machine := m } ∧
      World.transcript machine s.lockedJob w =
        ⟨.lock s.config.lockPath, x⟩ :: Program.transcript (World.answer machine) rest { w with machine := m } := by
  have hanswer : World.answer machine (.lock s.config.lockPath) w = (x, { w with machine := m }) := by
    simp only [World.answer, hl]
  unfold World.run World.transcript
  rw [Sending.lockedJob, World.locked_eq, ExceptT.run_mk, Program.run, Program.transcript, hanswer]
  exact ⟨rfl, rfl⟩

/-! ## A crew and its turns -/

variable {ι : Type} {c c' : Crew ι State} {t t' : Turns ι State} {i j : ι}

/-- The turns know of process `i` what the crew does, but that it still owes these messages, and that
    these responses were not said yet. It does not have the lock. -/
structure Even (c : Crew ι State) (t : Turns ι State) (i : ι) (owed : List Sending)
    (unsaid : List (Except Error (List UInt32))) : Prop where
  memory : t.memory i = (c.process i).memory
  left : t.left i = owed ++ sendings (c.process i).left
  responses : t.responses i = (c.process i).responses ++ unsaid
  free : c.holder ≠ some i

/-- What is left of a discovery ends in `r`. Between the index and the look at the register, the index
    is right. -/
def Discovering (m₀ : State) (devices : List PciDevice) (c : Crew ι State) (r : Except Error Topology)
    (p : Program (Except Error Topology)) : Prop :=
  Looks m₀ devices p r ∨ ∃ h a after, p = .ask (.read h Register.smnData) after ∧ Asks devices h a ∧
    c.machine.Names h a ∧ Looks m₀ devices (after (m₀.word h a)) r

/-- Process `i` has the lock, and had its turn: `q` is left of its exchange, and it ends in `x` and `w` as
    the turn did. -/
structure Within (m₀ : State) (c : Crew ι State) (t : Turns ι State) (i : ι) (s : Sending)
    (q : Program (Except Error (List UInt32))) (x : Except Error (List UInt32)) (w : World State) : Prop where
  holder : c.holder = some i
  left : t.left i = sendings (c.process i).left
  only : q.Only fun q => q.throughMailbox ∧ q.isLocking = false
  ports : Program.Throughout (World.answer machine) (fun u => u.machine.ports = m₀.ports) q
    (plainly ⟨c.machine, (c.process i).memory⟩)
  ends : Program.run (World.answer machine) (q.bind (unlocking s.config.lockPath))
    (plainly ⟨c.machine, (c.process i).memory⟩) = (x, w)
  machine : w.machine = t.machine.plain
  memory : w.memory = t.memory i
  responses : t.responses i = (c.process i).responses ++ [x]

/-- Where process `i` stands. -/
def Stands (m₀ : State) (devices : List PciDevice) (r : Except Error Topology) (c : Crew ι State)
    (t : Turns ι State) (i : ι) : Prop :=
  match (c.process i).doing with
  | .nothing => Even c t i [] []
  | .discovering p => Even c t i [] [] ∧ Discovering m₀ devices c r p
  | .sending s p =>
    (Even c t i [s] [] ∧ Before s (c.process i).memory p) ∨ (∃ x, p = .done x ∧ Even c t i [] [x]) ∨
      ∃ q x w, p = q.bind (unlocking s.config.lockPath) ∧ Within m₀ c t i s q x w

structure Together (m₀ : State) (devices : List PciDevice) (r : Except Error Topology) (c : Crew ι State)
    (t : Turns ι State) : Prop where
  ports : c.machine.ports = m₀.ports
  tables : ∀ i, ∀ x ∈ (c.process i).tables, x = r
  acquired : t.acquired = c.acquired
  /-- While nobody has the lock, the machine is as after the turns. -/
  idle : c.holder = none → t.machine.plain = c.machine.plain
  stands : ∀ i, Stands m₀ devices r c t i

/-- What a step of process `j` leaves to the others. -/
structure Frame (devices : List PciDevice) (c c' : Crew ι State) (t t' : Turns ι State) (j : ι) : Prop where
  process : ∀ i ≠ j, c'.process i = c.process i
  turns : ∀ i ≠ j, t'.memory i = t.memory i ∧ t'.left i = t.left i ∧ t'.responses i = t.responses i
  index : ∀ h a, Asks devices h a → c.machine.Names h a → c'.machine.Names h a
  holder : ∀ i ≠ j, c'.holder = some i ↔ c.holder = some i
  visible : ∀ i ≠ j, c.holder = some i →
    c'.machine.plain = c.machine.plain ∧ t'.machine.plain = t.machine.plain

variable {m₀ : State} {devices : List PciDevice} {r : Except Error Topology}

theorem Even.of_process {owed : List Sending} {unsaid : List (Except Error (List UInt32))} {p : Process}
    (hp : c.process i = p) (hm : t.memory i = p.memory) (hl : t.left i = owed ++ sendings p.left)
    (hr : t.responses i = p.responses ++ unsaid) (hf : c.holder ≠ some i) : Even c t i owed unsaid := by
  subst hp
  exact ⟨hm, hl, hr, hf⟩

theorem Even.frame {owed : List Sending} {unsaid : List (Except Error (List UInt32))}
    (hf : Frame devices c c' t t' j) (hi : i ≠ j) (h : Even c t i owed unsaid) : Even c' t' i owed unsaid := by
  obtain ⟨hmem, hleft, hresp⟩ := hf.turns i hi
  have hp := hf.process i hi
  refine ⟨?_, ?_, ?_, fun hh => h.free ((hf.holder i hi).mp hh)⟩
  · rw [hmem, hp, h.memory]
  · rw [hleft, hp, h.left]
  · rw [hresp, hp, h.responses]

theorem Within.frame {s : Sending} {q : Program (Except Error (List UInt32))}
    {x : Except Error (List UInt32)} {w : World State} (hf : Frame devices c c' t t' j) (hi : i ≠ j)
    (h : Within m₀ c t i s q x w) : Within m₀ c' t' i s q x w := by
  obtain ⟨hmem, hleft, hresp⟩ := hf.turns i hi
  obtain ⟨hplain, hplain'⟩ := hf.visible i hi h.holder
  have hp := hf.process i hi
  have hworld : plainly ⟨c'.machine, (c'.process i).memory⟩ = plainly ⟨c.machine, (c.process i).memory⟩ := by
    unfold plainly
    rw [hplain, hp]
  refine ⟨(hf.holder i hi).mpr h.holder, ?_, h.only, hworld ▸ h.ports, hworld ▸ h.ends, ?_, ?_, ?_⟩
  · rw [hleft, hp, h.left]
  · rw [hplain', h.machine]
  · rw [hmem, h.memory]
  · rw [hresp, hp, h.responses]

/-- The others stand where they stood. -/
theorem Stands.frame (hf : Frame devices c c' t t' j) (hi : i ≠ j) (h : Stands m₀ devices r c t i) :
    Stands m₀ devices r c' t' i := by
  have hp := hf.process i hi
  unfold Stands at h ⊢
  rw [hp]
  cases hd : (c.process i).doing with
  | nothing =>
    rw [hd] at h
    exact h.frame hf hi
  | discovering p =>
    rw [hd] at h
    obtain ⟨he, hl | ⟨d, a, after, rfl, ha, hindex, hl⟩⟩ := h
    · exact ⟨he.frame hf hi, Or.inl hl⟩
    · exact ⟨he.frame hf hi, Or.inr ⟨d, a, after, rfl, ha, hf.index d a ha hindex, hl⟩⟩
  | sending s p =>
    rw [hd] at h
    rcases h with ⟨he, hb⟩ | ⟨x, hx, he⟩ | ⟨q, x, w, hq, hw⟩
    · exact Or.inl ⟨he.frame hf hi, hb⟩
    · exact Or.inr (Or.inl ⟨x, hx, he.frame hf hi⟩)
    · exact Or.inr (Or.inr ⟨q, x, w, hq, hw.frame hf hi⟩)

/-- A step that keeps what concerns all, and after which process `j` stands right. -/
theorem Together.of_frame (h : Together m₀ devices r c t) (hf : Frame devices c c' t t' j)
    (hports : c'.machine.ports = m₀.ports) (htables : ∀ x ∈ (c'.process j).tables, x = r)
    (hacquired : t'.acquired = c'.acquired)
    (hidle : c'.holder = none → t'.machine.plain = c'.machine.plain)
    (hj : Stands m₀ devices r c' t' j) : Together m₀ devices r c' t' := by
  refine ⟨hports, fun i => ?_, hacquired, hidle, fun i => ?_⟩
  · by_cases hi : i = j
    · exact hi ▸ htables
    · rw [hf.process i hi]
      exact h.tables i
  · by_cases hi : i = j
    · exact hi ▸ hj
    · exact (h.stands i).frame hf hi

variable [DecidableEq ι]

/-- Process `j` goes on by itself. -/
theorem Frame.put (j : ι) (p : Process) (c : Crew ι State) (t : Turns ι State) :
    Frame devices c (c.put j p) t t j :=
  ⟨fun _ hi => Function.update_of_ne hi .., fun _ _ => ⟨rfl, rfl, rfl⟩, fun _ _ _ hi => hi,
    fun _ _ => Iff.rfl, fun _ _ _ => ⟨rfl, rfl⟩⟩

/-- A process had a reply: the others do not notice if the indexes of discovery stay right, and the
    lock and what an exchange can see stay as they were. -/
theorem Frame.answered {e : Event} {w : World State} {next : Doing}
    (hholder : ∀ i ≠ j, (c.answered j e w next).holder = some i ↔ c.holder = some i)
    (hplain : ∀ i ≠ j, c.holder = some i → w.machine.plain = c.machine.plain)
    (hindex : ∀ h a, Asks devices h a → c.machine.Names h a → w.machine.Names h a) :
    Frame devices c (c.answered j e w next) t t j where
  process _ hi := Function.update_of_ne hi ..
  turns _ _ := ⟨rfl, rfl, rfl⟩
  index := hindex
  holder := hholder
  visible i hi hh := ⟨hplain i hi hh, rfl⟩

/-- A turn of process `j`. -/
theorem Frame.turn (hf : Frame devices c c' t t j)
    (hm : (∃ i ≠ j, c.holder = some i) → (t.take machine j).machine.plain = t.machine.plain) :
    Frame devices c c' t (t.take machine j) j :=
  { hf with
    turns := fun _ hi => Turns.take_other machine hi t
    visible := fun i hi hh => ⟨(hf.visible i hi hh).1, hm ⟨i, hi, hh⟩⟩ }

/-- Process `j` had a reply to the lock while nobody had it, and its turn. -/
theorem Frame.locks {path : String} {x : Except Error Unit} {m : State} {mem : Memory} {d : Doing}
    (hl : machine.lock path c.machine = (x, m)) (hh : c.holder = none) :
    Frame devices c (c.answered j ⟨.lock path, x⟩ ⟨m, mem⟩ d) t (t.take machine j) j := by
  have hnobody : ∀ i, c.holder ≠ some i := by
    intro i hi
    rw [hh] at hi
    cases hi
  have hframe : Frame devices c (c.answered j ⟨.lock path, x⟩ ⟨m, mem⟩ d) t t j := by
    refine .answered (fun i hi => ⟨fun hj => ?_, fun hj => absurd hj (hnobody i)⟩)
      (fun i _ hi => absurd hi (hnobody i)) fun _ _ _ hn => hn.same (lock_keeps hl).2
    cases x with
    | error e => exact absurd hj (hnobody i)
    | ok _ => exact absurd (Option.some.inj hj).symm hi
  exact hframe.turn fun ⟨i, _, hi⟩ => absurd hi (hnobody i)

/-- A message that comes to the lock has its turn: what it ends in, and how it leaves the machine and its
    process, are as if it went on from here with nobody else there. -/
theorem Even.turn {s : Sending} (he : Even c t j [s] []) (hm : s.message.checkSize = .ok ())
    (hmem : (c.process j).memory.disabled = false) (hidle : t.machine.plain = c.machine.plain)
    {x : Except Error (List UInt32)} {w : World State}
    (hended : World.run machine s.lockedJob ⟨c.machine, (c.process j).memory⟩ = (x, w)) :
    (t.take machine j).machine.plain = w.machine.plain ∧ (t.take machine j).memory j = w.memory ∧
      (t.take machine j).left j = sendings (c.process j).left ∧
      (t.take machine j).responses j = (c.process j).responses ++ [x] ∧
      (t.take machine j).acquired = if (World.transcript machine s.lockedJob
        ⟨c.machine, (c.process j).memory⟩).any Event.grantsLock then t.acquired ++ [j] else t.acquired := by
  have hworld : plainly ⟨t.machine, t.memory j⟩ = plainly ⟨c.machine, (c.process j).memory⟩ := by
    unfold plainly
    rw [hidle, he.memory]
  have honly : Job.Only Request.throughMailbox s.lockedJob := locked_throughMailbox
    (converse_throughMailbox (Message.checkSize_eq_ok hm).1 s.config s.device s.highest)
  obtain ⟨hrun, hgrant⟩ := run_waiting (w := ⟨t.machine, t.memory j⟩) hm (by rw [he.memory, hmem])
  obtain ⟨hx, hw, htrace⟩ := run_of_plainly honly hworld
  change World.run machine s.lockedJob ⟨c.machine, (c.process j).memory⟩ = _ at hended
  change (World.run machine s.lockedJob _).1 = (World.run machine s.lockedJob _).1 at hx
  change plainly (World.run machine s.lockedJob _).2 = plainly (World.run machine s.lockedJob _).2 at hw
  change World.transcript machine s.lockedJob _ = World.transcript machine s.lockedJob _ at htrace
  rw [hended] at hx hw
  have htake := Turns.take_next (M := machine) he.left
  rw [hrun, hgrant, htrace] at htake
  rw [htake]
  refine ⟨congrArg World.machine hw, ?_, Function.update_self .., ?_, rfl⟩
  · have hmemory := congrArg World.memory hw
    exact (Function.update_self ..).trans hmemory
  · refine (Function.update_self ..).trans ?_
    rw [hx, he.responses, List.append_nil]

end Simulation

end FirmwareMailbox
