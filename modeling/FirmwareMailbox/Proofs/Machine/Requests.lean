/-
  FirmwareMailbox.Proofs.Machine.Requests — what a program can change by what it can ask.

  `Program.Only P p`: whatever the replies, `p` makes no request outside `P`. What a single request
  of `P` keeps, a run of such a program keeps (`Only.conducts`). A process remembers only what it asks to
  remember: without a request that writes to the memory, the memory stays as it is. What the process
  printed and how often it published nobody asks for, so a run does not depend on it (`run_alike`).

  `World.history` is the transcript with the world at each event, for what holds at a request and not only
  at the end of a run.
-/

import FirmwareMailbox.Proofs.Machine.Runs
import FirmwareMailbox.Proofs.Message.Transaction
import FirmwareMailbox.Topology.Discovery

namespace FirmwareMailbox

namespace Request

/-- Changes what the process remembers. -/
def isMemo : Request → Bool
  | .disable | .publish _ | .forget | .print _ => true
  | _ => false

/-- Accesses a device. -/
def isAccess : Request → Bool
  | .read .. | .write .. => true
  | _ => false

/-- Takes the lock or gives it back. -/
def isLocking : Request → Bool
  | .lock _ | .unlock _ => true
  | _ => false

/-- Belongs to an exchange of a message. -/
def isExchange : Request → Bool
  | .read .. | .write .. | .lock _ | .unlock _ | .pause _ | .isDisabled | .disable => true
  | _ => false

end Request

namespace Program

variable {α β : Type} {P Q : Request → Prop}

/-- Every request that the program may make is one of these. -/
def Only (P : Request → Prop) : Program α → Prop
  | .done _ => True
  | .ask q next => P q ∧ ∀ x, Only P (next x)

theorem Only.bind {p : Program α} {f : α → Program β} (hp : Only P p) (hf : ∀ a, Only P (f a)) :
    Only P (p.bind f) := by
  induction p with
  | done a => exact hf a
  | ask q next ih => exact ⟨hp.1, fun x => ih x (hp.2 x)⟩

theorem Only.mono (h : ∀ q, P q → Q q) {p : Program α} (hp : Only P p) : Only Q p := by
  induction p with
  | done a => trivial
  | ask q next ih => exact ⟨h q hp.1, fun x => ih x (hp.2 x)⟩

theorem Only.closed : Closed fun p => Only P p := ⟨fun _ => trivial, Only.bind⟩

theorem Yields.only {p : Program α} (hp : Only P p) {es : List Event} {a : α} (h : Yields p es a) :
    ∀ x ∈ es, P x.request := by
  induction h with
  | done a => intro x hx; cases hx
  | ask _ ih =>
    intro x hx
    rcases List.mem_cons.mp hx with rfl | hx
    · exact hp.1
    · exact ih (hp.2 _) x hx

end Program

namespace Job

variable {α β : Type} {P : Request → Prop}

/-- Every request that the job may make is one of these. -/
abbrev Only (P : Request → Prop) (j : Job α) : Prop := Program.Only P j.run

theorem only_bind {j : Job α} {f : α → Job β} (hj : Only P j) (hf : ∀ a, Only P (f a)) :
    Only P (j >>= f) :=
  Program.Only.closed.job_bind hj hf

theorem only_read {d : DeviceHandle} {o : UInt32} (h : P (.read d o)) : Only P (read d o) :=
  ⟨h, fun _ => trivial⟩

theorem only_write {d : DeviceHandle} {o v : UInt32} (h : P (.write d o v)) : Only P (write d o v) :=
  ⟨h, fun _ => trivial⟩

end Job

/-! ## The requests of discovery and of an exchange -/

section

variable {P : Request → Prop}

theorem Aperture.only_read (a : Aperture) (d : DeviceHandle) (x : UInt32)
    (hi : P (.write d a.index x)) (hr : P (.read d a.data)) : Job.Only P (a.read d x) :=
  Job.only_bind (Job.only_write hi) fun _ => Job.only_read hr

theorem Aperture.only_write (a : Aperture) (d : DeviceHandle) (x v : UInt32)
    (hi : P (.write d a.index x)) (hw : P (.write d a.data v)) : Job.Only P (a.write d x v) :=
  Job.only_bind (Job.only_write hi) fun _ => Job.only_write hw

end

/-- Discovery looks at one bus number register after the other, that of its own place for each tile, and
    fails for what is inconsistent. -/
theorem Job.Closed.ofDevices {P : Error → Prop} {C : ∀ {α : Type}, Job α → Prop} (hC : Closed P C)
    (hP : ∀ cause, P (.topology cause)) (devices : List PciDevice)
    (hread : ∀ tiles, Topology.arrange devices = .ok tiles → ∀ x ∈ tiles,
      C (Aperture.smn.read x.handle (Register.busNumber (x.index % Register.tilesPerSocket)))) :
    C (Topology.ofDevices devices) := by
  unfold Topology.ofDevices
  split
  · exact hC.throw (hP _)
  rename_i tiles ht
  have hn : ∀ (asked : List Tile), (∀ x ∈ asked, x ∈ tiles) → ∀ (ids : List (Option UInt8)),
      C (Topology.numberTiles tiles asked ids) := by
    intro asked
    induction asked with
    | nil => exact fun _ ids => hC.pure ids
    | cons x rest ih =>
      intro hasked ids
      have hx := hread tiles ht x (hasked x (List.mem_cons_self ..))
      refine hC.bind (hC.bind hx fun _ => hC.pure _) fun bus => ?_
      split
      · exact hC.throw (hP _)
      · exact ih (fun y hy => hasked y (List.mem_cons_of_mem x hy)) _
  exact hC.bind (hn tiles (fun _ h => h) _) fun _ => hC.pure _

theorem Program.Closed.ofDevices {C : ∀ {α : Type}, Program α → Prop} (hC : Closed C)
    (devices : List PciDevice) (hread : ∀ tiles, Topology.arrange devices = .ok tiles → ∀ x ∈ tiles,
      C (Aperture.smn.read x.handle (Register.busNumber (x.index % Register.tilesPerSocket))).run) :
    C (Topology.ofDevices devices).run :=
  hC.job.ofDevices (fun _ => trivial) devices hread

theorem Topology.ofDevices_only (devices : List PciDevice) :
    Job.Only (·.isAccess = true) (ofDevices devices) :=
  Program.Only.closed.ofDevices devices fun _ _ _ _ => Aperture.smn.only_read _ _ rfl rfl

/-- The words that an exchange of the message stores: a clear status, something in a slot, its number. -/
def Message.Stores (m : Message) (x v : UInt32) : Prop :=
  (x = Register.status ∧ v = Status.notReady) ∨ (∃ i < Register.slotCount, x = Register.slot i) ∨
    (x = Register.messageId ∧ v = m.id.number)

/-- The registers that an exchange of the message loads: the status, and the slots of the response. -/
def Message.Loads (m : Message) (x : UInt32) : Prop :=
  x = Register.status ∨ ∃ i < m.responseLength, x = Register.slot i

theorem Message.Stores.number {m : Message} {x v : UInt32} (h : m.Stores x v) (hx : x = Register.messageId) :
    v = m.id.number := by
  rcases h with ⟨rfl, -⟩ | ⟨i, hi, rfl⟩ | ⟨-, hv⟩
  · exact absurd hx (by decide)
  · exact absurd hx (Message.slot_ne i hi).1
  · exact hv

section

variable {C : ∀ {α : Type}, Program α → Prop} {m : Message} {d : DeviceHandle}

theorem Program.Closed.writeSlots (hC : Closed C)
    (hw : ∀ i v, i < Register.slotCount → C (Aperture.hsmp.write d (Register.slot i) v).run)
    (ws : List UInt32) (i : Nat) (hi : i + ws.length ≤ Register.slotCount) :
    C (Message.writeSlots d i ws).run := by
  induction ws generalizing i with
  | nil => exact hC.done _
  | cons w ws ih =>
    rw [List.length_cons] at hi
    exact hC.job_bind (hw i w (by omega)) fun _ => ih (i + 1) (by omega)

theorem Program.Closed.readSlots (hC : Closed C) {limit : Nat}
    (hr : ∀ i < limit, C (Aperture.hsmp.read d (Register.slot i)).run) (n i : Nat) (hi : i + n ≤ limit) :
    C (Message.readSlots d i n).run := by
  induction n generalizing i with
  | zero => exact hC.done _
  | succ n ih =>
    exact hC.job_bind (hr i (by omega)) fun _ =>
      hC.job_bind (ih (i + 1) (by omega)) fun _ => hC.done _

theorem Program.Closed.awaitStatus (hC : Closed C) (hp : ∀ n, C (request (.pause n)))
    (hr : C (Aperture.hsmp.read d Register.status).run) (interval budget : Nat) :
    C (Message.awaitStatus d interval budget).run := by
  induction budget with
  | zero => exact hC.done _
  | succ n ih =>
    refine hC.job_bind (hC.bind (hp _) fun _ => hC.done _) fun _ => hC.job_bind hr fun status => ?_
    split
    · exact ih
    · exact hC.done _

/-- An exchange under the lock is made of pauses, of giving up and of accesses to the mailbox, where it
    stores and loads what goes with its message. -/
theorem Program.Closed.converse (hC : Closed C) (hp : ∀ n, C (request (.pause n)))
    (hg : C (request .disable)) (hr : ∀ x, m.Loads x → C (Aperture.hsmp.read d x).run)
    (hw : ∀ x v, m.Stores x v → C (Aperture.hsmp.write d x v).run)
    (hl : m.args.length ≤ Register.slotCount) (c : Config) (highest : Option MessageId) :
    C (m.converse c d highest).run := by
  have hwrites := hC.writeSlots (fun i v hi => hw _ v (Or.inr (Or.inl ⟨i, hi, rfl⟩))) m.args 0 (by omega)
  have hreads : C (Message.readSlots d 0 m.responseLength).run :=
    hC.readSlots (fun i hi => hr _ (Or.inr ⟨i, hi, rfl⟩)) _ 0 (Nat.le_of_eq (Nat.zero_add _))
  have hawait := hC.awaitStatus hp (hr _ (Or.inl rfl)) c.interval
  refine hC.job_bind (hw _ _ (Or.inl ⟨rfl, rfl⟩)) fun _ =>
    hC.job_bind hwrites fun _ => hC.job_bind (hw _ _ (Or.inr (Or.inr ⟨rfl, rfl⟩))) fun _ =>
    hC.job_bind (hawait _) fun status => ?_
  split
  · exact hreads
  · split
    · exact hC.job_bind (hC.bind hg fun _ => hC.done _) fun _ => hC.done _
    · exact hC.done _

/-- So is the whole exchange. -/
theorem Program.Closed.exchange (hC : Closed C)
    (hq : ∀ q : Request, q.isExchange = true → q.isAccess = false → C (request q))
    (hr : m.responseLength ≤ Register.slotCount → ∀ x, m.Loads x → C (Aperture.hsmp.read d x).run)
    (hw : ∀ x v, m.Stores x v → C (Aperture.hsmp.write d x v).run)
    (c : Config) (highest : Option MessageId) : C (m.exchange c d highest).run := by
  cases hm : m.checkSize with
  | error e =>
    unfold Message.exchange
    rw [hm]
    exact hC.done _
  | ok _ =>
    refine hC.job_bind (hC.done _) fun _ => hC.job_bind (hC.bind (hq _ rfl rfl) fun _ => hC.done _) fun b => ?_
    cases b
    case true => exact hC.done _
    refine hC.bind (hq (.lock c.lockPath) rfl rfl) fun x => ?_
    cases x with
    | error e => exact hC.done _
    | ok _ =>
      obtain ⟨ha, hl⟩ := Message.checkSize_eq_ok hm
      exact hC.bind (hC.converse (fun _ => hq _ rfl rfl) (hq _ rfl rfl) (hr hl) hw ha c highest) fun r =>
        hC.bind (hq (.unlock c.lockPath) rfl rfl) fun _ => hC.done _

end

/-- What happens under the lock leaves the lock alone. -/
theorem Message.converse_only {m : Message} (hl : m.args.length ≤ Register.slotCount) (d : DeviceHandle)
    (c : Config) (highest : Option MessageId) :
    Job.Only (fun q => q.isExchange = true ∧ q.isLocking = false) (m.converse c d highest) :=
  Program.Only.closed.converse (fun _ => ⟨⟨rfl, rfl⟩, fun _ => trivial⟩) ⟨⟨rfl, rfl⟩, fun _ => trivial⟩
    (fun _ _ => Aperture.hsmp.only_read _ _ ⟨rfl, rfl⟩ ⟨rfl, rfl⟩)
    (fun _ _ _ => Aperture.hsmp.only_write _ _ _ ⟨rfl, rfl⟩ ⟨rfl, rfl⟩) hl c highest

theorem Message.exchange_only (d : DeviceHandle) (c : Config) (m : Message) (highest : Option MessageId) :
    Job.Only (·.isExchange = true) (m.exchange c d highest) :=
  Program.Only.closed.exchange (fun _ h _ => ⟨h, fun _ => trivial⟩)
    (fun _ _ _ => Aperture.hsmp.only_read _ _ rfl rfl)
    (fun _ _ _ => Aperture.hsmp.only_write _ _ _ rfl rfl) c highest

namespace Program

/-! ## The states that a run goes through -/

section

variable {α β σ : Type} {answer : (r : Request) → σ → r.Reply × σ}

/-- The events of a run, each with the state that it happened in. -/
def history (answer : (r : Request) → σ → r.Reply × σ) : Program α → σ → List (σ × Event)
  | .done _, _ => []
  | .ask r next, s =>
    (s, ⟨r, (answer r s).1⟩) :: history answer (next (answer r s).1) (answer r s).2

theorem history_bind (p : Program α) (f : α → Program β) (s : σ) :
    history answer (p.bind f) s =
      history answer p s ++ history answer (f (run answer p s).1) (run answer p s).2 := by
  induction p generalizing s with
  | done a => rfl
  | ask r next ih => simp [bind, run, history, ih]

theorem map_history (p : Program α) (s : σ) : (history answer p s).map (·.2) = transcript answer p s := by
  induction p generalizing s with
  | done a => rfl
  | ask r next ih => simp [history, transcript, ih]

/-- What each request keeps holds all the way, and at the end. -/
theorem Only.history {P : Request → Prop} {I : σ → Prop} {p : Program α} (hp : Only P p)
    (hs : ∀ q s, P q → I s → I (answer q s).2) {s : σ} (hI : I s) :
    (∀ x ∈ history answer p s, I x.1) ∧ I (run answer p s).2 := by
  induction p generalizing s with
  | done a =>
    refine ⟨fun x hx => ?_, hI⟩
    cases hx
  | ask q next ih =>
    have hq : I (answer q s).2 := hs q s hp.1 hI
    obtain ⟨hh, hr⟩ := ih _ (hp.2 _) hq
    refine ⟨fun x hx => ?_, hr⟩
    rcases List.mem_cons.mp hx with rfl | hx
    · exact hI
    · exact hh x hx

end

variable {μ α : Type} {M : Machine μ}

/-- What each request keeps, the program keeps. -/
theorem Only.conducts {P : Request → Prop} {T : World μ → List Event → World μ → Prop}
    (hT : World.Composes T) {p : Program α} (hp : Only P p)
    (hs : ∀ q w, P q → T w [⟨q, (World.answer M q w).1⟩] (World.answer M q w).2) :
    World.Conducts M T p := by
  induction p with
  | done a => exact .done hT a
  | ask q next ih => exact fun w => hT.trans (hs q w hp.1) (ih _ (hp.2 _) _)

theorem Only.memory {p : Program α} (hp : Only (·.isMemo = false) p) (w : World μ) :
    (run (World.answer M) p w).2.memory = w.memory := by
  refine Only.conducts (T := fun w _ w' => w'.memory = w.memory) ⟨fun _ => rfl, ?_⟩ hp ?_ w
  · exact fun h h' => h'.trans h
  · intro q w hq
    cases q <;> first | rfl | cases hq

end Program

namespace World

variable {μ α : Type} {M : Machine μ}

/-- The events of a job's run, each with the world that it happened in. -/
def history (M : Machine μ) (j : Job α) (w : World μ) : List (World μ × Event) :=
  Program.history (answer M) j.run w

theorem map_history (j : Job α) (w : World μ) : (history M j w).map (·.2) = transcript M j w :=
  Program.map_history _ _

theorem history_keeps {P : Request → Prop} {I : World μ → Prop} {j : Job α} (hj : Job.Only P j)
    (hs : ∀ q w, P q → I w → I (answer M q w).2) {w : World μ} (hI : I w) :
    (∀ x ∈ history M j w, I x.1) ∧ I (run M j w).2 :=
  Program.Only.history hj hs hI

theorem Runs.memory {j : Job α} (hj : Job.Only (·.isMemo = false) j) {w w' : World μ} {es : List Event}
    {r : Except Error α} (h : Runs M j w es r w') : w'.memory = w.memory := by
  have hm := hj.memory (M := M) w
  change (World.run M j w).2.memory = _ at hm
  rwa [h.run] at hm

/-- Two processes at the same machine that will be told the same when they ask what they
    remember. -/
structure Alike (w w' : World μ) : Prop where
  machine : w.machine = w'.machine
  disabled : w.memory.disabled = w'.memory.disabled
  inventory : w.memory.inventory = w'.memory.inventory

/-- They do the same. -/
theorem run_alike (p : Program α) {w w' : World μ} (h : Alike w w') :
    (Program.run (answer M) p w).1 = (Program.run (answer M) p w').1 ∧
      Program.transcript (answer M) p w = Program.transcript (answer M) p w' ∧
      Alike (Program.run (answer M) p w).2 (Program.run (answer M) p w').2 := by
  induction p generalizing w w' with
  | done a => exact ⟨rfl, rfl, h⟩
  | ask q next ih =>
    have hq : (answer M q w).1 = (answer M q w').1 ∧ Alike (answer M q w).2 (answer M q w').2 := by
      rcases w with ⟨m, mem⟩
      rcases w' with ⟨m', mem'⟩
      obtain ⟨hm, hd, hi⟩ := h
      obtain rfl : m = m' := hm
      cases q
      case isDisabled => exact ⟨hd, rfl, hd, hi⟩
      case «recall» => exact ⟨hi, rfl, hd, hi⟩
      case disable => exact ⟨rfl, rfl, rfl, hi⟩
      case publish => exact ⟨rfl, rfl, hd, rfl⟩
      case forget => exact ⟨rfl, rfl, hd, rfl⟩
      all_goals exact ⟨rfl, rfl, hd, hi⟩
    simp only [Program.run, Program.transcript, hq.1]
    obtain ⟨hr, ht, ha⟩ := ih (answer M q w').1 hq.2
    exact ⟨hr, by rw [ht], ha⟩

end World

end FirmwareMailbox
