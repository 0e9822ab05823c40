/-
  FirmwareMailbox.Proofs.Session.Refusing — a request that is refused touches nothing.

  There are two ways to refuse a request: its arguments are none for this machine, or it needs a newer
  version of the interface. Both are decided from what the process remembers, before the lock is taken
  and before any device is accessed. The machine itself refuses nothing, so a request that went as far
  as a mailbox ends otherwise (`Message.exchange_not_refused`).

  The inventory decides at once what becomes of an errand (`Errand.Settles`, `Operation.settles`); this
  is where the tables of tiles, CPUs and processors come in. What a run makes of it is one lemma for all
  operations (`Errand.Settles.runs`).
-/

import FirmwareMailbox.Proofs.Capability.Versions
import FirmwareMailbox.Proofs.Session.Errand
import FirmwareMailbox.Proofs.Session.GivingUp
import FirmwareMailbox.Proofs.Session.Remembering
import FirmwareMailbox.Proofs.Simulation.Agreement
import FirmwareMailbox.Proofs.Topology.Lookup

namespace FirmwareMailbox

/-- A request was refused: for its arguments, or for the version it needs. -/
def Error.isRefusal : Error → Bool
  | .invalidArgument _ | .versionMismatch .. => true
  | _ => false

theorem Error.not_refusal_of_system {e : Error} (h : e.ofDevice = true ∨ e.ofLock = true) :
    e.isRefusal = false := by
  have hk := kind_of_system h
  cases e with
  | invalidArgument _ => rcases hk with hk | hk <;> cases hk
  | versionMismatch _ _ _ => rcases hk with hk | hk <;> cases hk
  | _ => rfl

/-- On a machine with plain failures, an exchange of a message that fits fails in other ways. -/
theorem Message.exchange_not_refused {m : Message} {c : Config} {d : DeviceHandle}
    {highest : Option MessageId} {es : List Event} {e : Error} (hm : m.Fits) (hp : ∀ x ∈ es, x.Plain)
    (h : Job.Yields (m.exchange c d highest) es (.error e)) : e.isRefusal = false := by
  rcases yields_exchange h with ⟨f, hs, -, -⟩ | ⟨hr, -⟩ | ⟨f, hr, rfl⟩ | ⟨fs, rfl, hf⟩
  · obtain ⟨ha, hr⟩ := hm.sizes
    rw [checkSize, if_neg (by omega)] at hs
    cases hs
  · cases hr
    rfl
  · cases hr
    exact Error.not_refusal_of_system (Or.inr (hp ⟨.lock c.lockPath, .error e⟩ (by simp)))
  · obtain ⟨ss, ws, hA, ⟨hr, -⟩ | ⟨f, hr, hc⟩⟩ := yields_converse hf
    · rcases outcome_error hr.symm with ⟨-, rfl⟩ | ⟨-, ⟨-, rfl⟩ | rfl⟩ <;> rfl
    · cases hr
      obtain ⟨x, hx, hxe⟩ := hc.exists_error
      exact Error.not_refusal_of_system (Or.inl ((hp x (by simp [hx])).ofDevice hxe))

/-! ## What the inventory decides -/

/-- If the computation fails, it is no refusal. -/
def Accepts {α : Type} (x : Except Error α) : Prop := ∀ e, x = .error e → e.isRefusal = false

theorem Accepts.ok {α : Type} (a : α) : Accepts (.ok a) := FailsWith.ok a

/-- An error that is no refusal is none for another kind of value. -/
theorem Accepts.error {α β : Type} {e : Error} (h : Accepts (.error e : Except Error α)) :
    Accepts (.error e : Except Error β) := by
  intro e' he
  cases he
  exact h e rfl

theorem Accepts.bind {α β : Type} {x : Except Error α} {f : α → Except Error β} (hx : Accepts x)
    (hf : ∀ a, Accepts (f a)) : Accepts (x >>= f) := FailsWith.bind hx hf

theorem Accepts.word (words : List UInt32) (i : Nat) : Accepts (Job.word words i) := by
  intro e h
  rw [(Job.word_eq_error h).2]
  rfl

/-- The errand is refused if and only if `P`, and then for its arguments: by the inventory, or because
    there is no such socket. -/
def Errand.Settles (inv : Inventory) (P : Prop) : Except Error Errand → Prop
  | .error e => P ∧ ∃ cause, e = .invalidArgument cause
  | .ok (.known (.error e)) => P ∧ ∃ cause, e = .invalidArgument cause
  | .ok (.known (.ok _)) => ¬ P
  | .ok (.send n m read) => (P ↔ inv.topology.socketCount ≤ n) ∧ m.Fits ∧ ∀ words, Accepts (read words)
  | .ok (.sendAll m) => ¬ P ∧ m.Fits

namespace Errand

variable {inv : Inventory} {n : Nat}

theorem Settles.congr {P P' : Prop} {x : Except Error Errand} (h : Settles inv P x) (hP : P ↔ P') :
    Settles inv P' x := propext hP ▸ h

theorem word_settles (id : MessageId) (hid : Message.Fits { id, responseLength := 1 }) (f : UInt32 → Answer) :
    Settles inv (inv.topology.socketCount ≤ n) (.ok (.word n id f)) :=
  ⟨Iff.rfl, hid, fun words => (Accepts.word words 0).bind fun _ => .ok _⟩

theorem clocks_settles (f : Session.FabricClocks → Answer) :
    Settles inv (inv.topology.socketCount ≤ n) (.ok (.clocks n f)) :=
  ⟨Iff.rfl, ⟨rfl, rfl⟩, fun words => (Accepts.word words 0).bind fun _ =>
    (Accepts.word words 1).bind fun _ => .ok _⟩

theorem set_settles {m : Message} (hm : m.Fits) :
    Settles inv (inv.topology.socketCount ≤ n) (.ok (.set n m)) :=
  ⟨Iff.rfl, hm, fun _ => .ok _⟩

theorem widths_settles (min max : LinkWidth) :
    Settles inv (min < LinkWidth.floor inv.processor) (widths inv min max) := by
  unfold widths
  dsimp only
  split
  · exact ⟨‹_›, _, rfl⟩
  · exact ⟨‹_›, rfl, rfl⟩

/-- What is done for a CPU is refused if the CPU cannot be named to its socket. -/
theorem cpu_settles (cpu : Nat) {m : UInt16 → Message} (hm : ∀ a, (m a).Fits)
    {read : List UInt32 → Except Error Answer} (hread : ∀ words, Accepts (read words)) :
    Settles inv (inv.cpus.Misses inv.topology cpu) (do
      let entry ← inv.cpus.get cpu
      let apicId ← Session.narrowApicId cpu entry.apicId
      return .send entry.socket (m apicId) read) := by
  cases inv.cpus.lookup inv.topology cpu with
  | absent hmisses hget =>
    simp only [hget, bind, Except.bind]
    exact ⟨hmisses, _, rfl⟩
  | wide hmisses hget hwide =>
    simp only [hget, hwide, bind, Except.bind]
    exact ⟨hmisses, _, rfl⟩
  | named _ _ hget hnamed hmisses =>
    simp only [hget, hnamed, bind, Except.bind]
    exact ⟨hmisses, hm _, hread⟩

end Errand

/-- Nothing but its arguments keeps an operation from its errand. -/
theorem Operation.settles {inv : Inventory} (h : inv.Sound) (op : Operation) (hd : op.disorder? = none) :
    Errand.Settles inv (op.Misused inv.processor inv.topology inv.cpus) (op.errand inv) := by
  cases op
  case cpuBoost cpu =>
    exact Errand.cpu_settles cpu (fun _ => ⟨rfl, rfl⟩) fun words => (Accepts.word words 0).bind fun _ => .ok _
  case setCpuBoost cpu mhz => exact Errand.cpu_settles cpu (fun _ => ⟨rfl, rfl⟩) fun words => .ok _
  case setLinkWidth min max =>
    have hle : ¬ max < min := fun hlt => by
      simp only [disorder?, if_pos hlt] at hd
      cases hd
    exact (Errand.widths_settles min max).congr (or_iff_right hle).symm
  case setLinkWidthAuto =>
    exact (Errand.widths_settles _ .x16).congr (iff_of_false (UInt8.lt_irrefl _) id)
  case setInterfaceState bus p =>
    obtain ⟨x, hx⟩ := h.hosts bus
    obtain ⟨hsocket, hid⟩ := Topology.tile_of_bus h.arranged h.numbers hx
    simp only [errand, Topology.busTile_of_filter hx, bind, Except.bind, levels_fit hid p]
    exact ⟨iff_of_false id (Nat.not_le.mpr hsocket), ⟨rfl, rfl⟩, fun _ => .ok _⟩
  case setSystemBoost mhz => exact ⟨id, rfl, rfl⟩
  case setFabricState n p => cases p <;> exact Errand.set_settles ⟨rfl, rfl⟩
  case fabricClocks n | fabricClock n | memoryClock n => exact Errand.clocks_settles _
  case firmwareVersion | interfaceVersion | lowestBuses => exact id
  case busAfter i =>
    simp only [errand, Topology.busAfter]
    by_cases hi : i < inv.topology.tiles.length
    · rw [List.getElem?_eq_getElem hi]
      exact Nat.not_le.mpr hi
    · rw [List.getElem?_eq_none (Nat.le_of_not_lt hi)]
      exact ⟨Nat.le_of_not_lt hi, _, rfl⟩
  case setPowerLimit n limit => exact Errand.set_settles ⟨rfl, rfl⟩
  case setSocketBoost n mhz => exact Errand.set_settles ⟨rfl, rfl⟩
  all_goals exact Errand.word_settles _ ⟨rfl, rfl⟩ _

/-- What is wrong on any machine is wrong on this one. -/
theorem Operation.misused_of_disorder {op : Operation} {cause : Misuse} (h : op.disorder? = some cause)
    (p : Processor) (t : Topology) (cpus : CpuTable) : op.Misused p t cpus := by
  cases op
  case setLinkWidth min max =>
    by_cases hlt : max < min
    · exact Or.inl hlt
    · simp only [disorder?, if_neg hlt] at h
      cases h
  all_goals cases h

namespace World

variable {μ α : Type} {M : Machine μ} {s : Session} {w w' : World μ} {es : List Event} {inv : Inventory}

/-! ## What a run makes of it -/

/-- A message that fits goes to a socket that is there, and is refused for one that is not. -/
theorem runs_deliver (hM : M.Plain) {n : Nat} {m : Message} (hm : m.Fits)
    {r : Except Error (List UInt32)} (h : Runs M (s.deliver inv n m) w es r w') :
    (inv.topology.socketCount ≤ n ∧ (∃ cause, r = .error (.invalidArgument cause)) ∧ es = [] ∧ w' = w) ∨
      n < inv.topology.socketCount ∧ Accepts r := by
  by_cases hn : inv.topology.socketCount ≤ n
  · unfold Session.deliver at h
    rw [Topology.mailboxTile_absent hn] at h
    rcases runs_bind.mp h with ⟨e, rfl, hl⟩ | ⟨fs, gs, x, u, rfl, hl, -⟩
    · obtain ⟨rfl, he, rfl⟩ := runs_lift.mp hl
      cases he
      exact Or.inl ⟨hn, ⟨_, rfl⟩, rfl, rfl⟩
    · cases (runs_lift.mp hl).2.1
  · refine Or.inr ⟨Nat.lt_of_not_le hn, fun e he => ?_⟩
    subst he
    obtain ⟨x, -, hok⟩ := Topology.mailboxTile_present (Nat.lt_of_not_le hn)
    rcases runs_bind.mp h with ⟨e', he, hl⟩ | ⟨fs, gs, x', u, rfl, -, hx⟩
    · obtain ⟨-, hl, -⟩ := runs_lift.mp hl
      rw [hok] at hl
      cases hl
    · exact Message.exchange_not_refused hm (hx.plain hM) hx.yields

theorem runs_deliverAll (hM : M.Plain) {m : Message} (hm : m.Fits) {r : Except Error Unit}
    (h : Runs M (s.deliverAll inv m) w es r w') : Accepts r := by
  have hfrom : ∀ k i w es r w', i + k ≤ inv.topology.socketCount →
      Runs M (s.deliverFrom inv m i k) w es r w' → Accepts r := by
    intro k
    induction k with
    | zero =>
      intro i w es r w' _ h
      obtain ⟨-, rfl, -⟩ := runs_pure.mp h
      exact .ok ()
    | succ k ih =>
      intro i w es r w' hi h
      rcases runs_bind.mp h with ⟨e, rfl, hd⟩ | ⟨fs, gs, x, u, rfl, -, hrest⟩
      · rcases runs_deliver hM hm hd with ⟨habsent, -⟩ | ⟨-, hacc⟩
        · omega
        · exact hacc.error
      · exact ih _ _ _ _ _ (by omega) hrest
  exact hfrom _ 0 _ _ _ _ (by omega) h

/-- A run of an errand that settles is refused if and only if `P`, for its arguments, and then nothing
    happens in it. -/
theorem runs_errand (hM : M.Plain) {P : Prop} {x : Except Error Errand} (hx : Errand.Settles inv P x)
    {r : Except Error Answer} (h : Runs M (liftM x >>= fun e => e.perform s inv) w es r w') :
    (P ∧ (∃ cause, r = .error (.invalidArgument cause)) ∧ es = [] ∧ w' = w) ∨ ¬ P ∧ Accepts r := by
  match x, hx with
  | .error _, ⟨hP, cause, rfl⟩ =>
    obtain ⟨rfl, rfl, rfl⟩ := runs_throw.mp h
    exact Or.inl ⟨hP, ⟨cause, rfl⟩, rfl, rfl⟩
  | .ok (.known (.error _)), ⟨hP, cause, rfl⟩ =>
    obtain ⟨rfl, rfl, rfl⟩ := runs_throw.mp h
    exact Or.inl ⟨hP, ⟨cause, rfl⟩, rfl, rfl⟩
  | .ok (.known (.ok a)), hP =>
    obtain ⟨rfl, rfl, rfl⟩ := runs_pure.mp h
    exact Or.inr ⟨hP, .ok a⟩
  | .ok (.send n m read), ⟨hP, hm, hread⟩ =>
    rw [Job.lift_ok, pure_bind] at h
    rcases runs_bind.mp h with ⟨e, rfl, hd⟩ | ⟨fs, gs, words, u, rfl, hd, hr⟩
    · rcases runs_deliver hM hm hd with ⟨hn, ⟨cause, he⟩, rfl, rfl⟩ | ⟨hn, hacc⟩
      · cases he
        exact Or.inl ⟨hP.mpr hn, ⟨cause, rfl⟩, rfl, rfl⟩
      · exact Or.inr ⟨fun h => Nat.not_lt.mpr (hP.mp h) hn, hacc.error⟩
    · rcases runs_deliver hM hm hd with ⟨-, ⟨cause, he⟩, -⟩ | ⟨hn, -⟩
      · cases he
      · obtain ⟨-, rfl, -⟩ := runs_lift.mp hr
        exact Or.inr ⟨fun h => Nat.not_lt.mpr (hP.mp h) hn, hread words⟩
  | .ok (.sendAll m), ⟨hP, hm⟩ =>
    rw [Job.lift_ok, pure_bind] at h
    rcases runs_bind.mp h with ⟨e, rfl, hd⟩ | ⟨fs, gs, u, v, rfl, -, hr⟩
    · exact Or.inr ⟨hP, (runs_deliverAll hM hm hd).error⟩
    · obtain ⟨-, rfl, -⟩ := runs_pure.mp hr
      exact Or.inr ⟨hP, .ok _⟩

/-! ## Operations -/

/-- Nothing but questions whether the gate may be passed and what is behind it. -/
def Questions (es : List Event) : Prop :=
  ∀ x ∈ es, x.request = .isPrivileged ∨ x.request = .isDisabled ∨ x.request = .recall

/-- The ways an operation can end in a process that knows its machine: refused, or not refused. -/
inductive Decided (inv : Inventory) (op : Operation) (w : World μ) :
    List Event → Except Error Answer → World μ → Prop
  /-- The arguments are none for any machine; the gate is not asked. -/
  | disorder {cause : Misuse} : op.disorder? = some cause →
      Decided inv op w [] (.error (.invalidArgument cause)) w
  | version {es : List Event} {id : MessageId} : Questions es → op.asks = some id →
      ¬ id.minVersion ≤ inv.capabilities.interfaceVersion →
      Decided inv op w es (.error (.versionMismatch id id.minVersion inv.capabilities.interfaceVersion)) w
  | misuse {es : List Event} {cause : Misuse} : Questions es → op.Misused inv.processor inv.topology inv.cpus →
      Decided inv op w es (.error (.invalidArgument cause)) w
  | accepted {es : List Event} {r : Except Error Answer} {w' : World μ} :
      ¬ op.Misused inv.processor inv.topology inv.cpus → Accepts r → Decided inv op w es r w'

namespace Decided

variable {op : Operation} {r : Except Error Answer}

theorem refused_iff (h : Decided inv op w es r w') (hpass : ∀ id, op.asks = some id →
    id.minVersion ≤ inv.capabilities.interfaceVersion) : (∃ cause, r = .error (.invalidArgument cause)) ↔
      op.Misused inv.processor inv.topology inv.cpus := by
  cases h with
  | @disorder cause hsome => exact iff_of_true ⟨cause, rfl⟩ (op.misused_of_disorder hsome _ _ _)
  | version _ hid hold => exact absurd (hpass _ hid) hold
  | @misuse _ cause _ hmis => exact iff_of_true ⟨cause, rfl⟩ hmis
  | accepted hmis hacc =>
    refine iff_of_false (fun ⟨cause, he⟩ => ?_) hmis
    cases hacc _ he

theorem untouched (h : Decided inv op w es r w') {e : Error} (he : r = .error e) (href : e.isRefusal = true) :
    w' = w ∧ Questions es := by
  cases h with
  | disorder => exact ⟨rfl, fun x hx => (by cases hx)⟩
  | version hq => exact ⟨rfl, hq⟩
  | misuse hq => exact ⟨rfl, hq⟩
  | accepted _ hacc =>
    rw [hacc e he] at href
    cases href

end Decided

section

variable (hM : M.Plain) (hS : inv.Sound) (hp : M.isPrivileged w.machine = true)
  (hd : w.memory.disabled = false) (hi : w.memory.inventory = some inv)

include hp hd hi

/-- With the machine known, the gate comes down to the version. -/
theorem runs_gate_known {m? : Option MessageId} {r : Except Error Inventory}
    (h : Runs M (s.gate m?) w es r w') : Questions es ∧ w' = w ∧
      ((r = .ok inv ∧ ∀ id, m? = some id → id.minVersion ≤ inv.capabilities.interfaceVersion) ∨
        ∃ id, m? = some id ∧ ¬ id.minVersion ≤ inv.capabilities.interfaceVersion ∧
          r = .error (.versionMismatch id id.minVersion inv.capabilities.interfaceVersion)) := by
  cases Session.runs_gate h with
  | denied hp' => rw [hp] at hp'; cases hp'
  | disabled _ hd' => rw [hd] at hd'; cases hd'
  | learned _ _ hn => rw [hi] at hn; cases hn
  | failed _ _ hn => rw [hi] at hn; cases hn
  | known _ _ hi' =>
    rw [hi] at hi'
    cases hi'
    refine ⟨by simp [Questions], rfl, ?_⟩
    cases m? with
    | none => exact Or.inl ⟨rfl, fun id hid => by cases hid⟩
    | some id =>
      simp only [Session.letPass, Capabilities.require_eq]
      by_cases hv : id.minVersion ≤ inv.capabilities.interfaceVersion
      · rw [if_pos hv]
        refine Or.inl ⟨rfl, fun id' hid => ?_⟩
        cases hid
        exact hv
      · rw [if_neg hv]
        exact Or.inr ⟨id, rfl, hv, rfl⟩

include hM hS

theorem runs_behindGate {op : Operation} (hdis : op.disorder? = none) {r : Except Error Answer}
    (h : Runs M (op.behindGate s) w es r w') : Decided inv op w es r w' := by
  rcases runs_bind.mp h with ⟨e, rfl, hg⟩ | ⟨fs, gs, inv', u, rfl, hg, hrest⟩
  · obtain ⟨hq, rfl, ⟨he, -⟩ | ⟨id, hid, hv, he⟩⟩ := runs_gate_known hp hd hi hg
    · cases he
    · cases he
      exact .version hq hid hv
  · obtain ⟨hq, rfl, ⟨he, -⟩ | ⟨id, -, -, he⟩⟩ := runs_gate_known hp hd hi hg
    · cases he
      rcases runs_errand hM (op.settles hS hdis) hrest with ⟨hP, ⟨cause, rfl⟩, rfl, rfl⟩ | ⟨hP, hacc⟩
      · rw [List.append_nil]
        exact .misuse hq hP
      · exact .accepted hP hacc
    · cases he

theorem runs_operation {op : Operation} {r : Except Error Answer} (h : Runs M (op.perform s) w es r w') :
    Decided inv op w es r w' := by
  by_cases ha : op = .setLinkWidthAuto
  · subst ha
    rw [Operation.perform_linkWidthAuto] at h
    rcases runs_bind.mp h with ⟨e, rfl, hg⟩ | ⟨fs, gs, inv', u, rfl, hg, hrest⟩
    · obtain ⟨hq, rfl, ⟨he, -⟩ | ⟨id, hid, hv, he⟩⟩ := runs_gate_known hp hd hi hg
      · cases he
      · cases he
        exact .version hq hid hv
    obtain ⟨-, rfl, ⟨he, hv⟩ | ⟨id, -, -, he⟩⟩ := runs_gate_known hp hd hi hg
    case inr => cases he
    cases he
    -- every width a processor allows is in order, and the gate lets the same message pass again
    have hwidest := Operation.not_widest_lt (LinkWidth.floor inv.processor)
    have hdis := Operation.disorder?_widest (LinkWidth.floor inv.processor)
    rw [Operation.perform_eq s _ (by simp), hdis] at hrest
    cases runs_behindGate hM hS hp hd hi hdis hrest with
    | disorder hsome => rw [hdis] at hsome; cases hsome
    | version _ hid hold => exact absurd (hv _ hid) hold
    | misuse _ hmis => exact absurd hmis (not_or.mpr ⟨hwidest, UInt8.lt_irrefl _⟩)
    | accepted _ hacc => exact .accepted id hacc
  · rw [Operation.perform_eq s op ha] at h
    cases hdis : op.disorder? with
    | some cause =>
      rw [hdis] at h
      obtain ⟨rfl, rfl, rfl⟩ := runs_throw.mp h
      exact .disorder hdis
    | none =>
      rw [hdis] at h
      exact runs_behindGate hM hS hp hd hi hdis h

end

/-- To a caller without privilege the gate is shut, and only a range of widths the wrong way round is
    refused before it. -/
theorem runs_unprivileged (hp : M.isPrivileged w.machine = false) {op : Operation}
    {r : Except Error Answer} (h : Runs M (op.perform s) w es r w') :
    Questions es ∧ w' = w ∧ r = .error (match op.disorder? with
      | some cause => .invalidArgument cause
      | none => .denied .notRoot) := by
  have hgate : ∀ {m?} {f : Inventory → Job Answer}, Runs M (s.gate m? >>= f) w es r w' →
      Questions es ∧ w' = w ∧ r = .error (.denied .notRoot) := by
    intro m? f h
    have hshut : ∀ {fs : List Event} {x : Except Error Inventory} {u : World μ}, Runs M (s.gate m?) w fs x u →
        Questions fs ∧ u = w ∧ x = .error (.denied .notRoot) := by
      intro fs x u hg
      cases Session.runs_gate hg with
      | denied => exact ⟨by simp [Questions], rfl, rfl⟩
      | disabled hp' => rw [hp] at hp'; cases hp'
      | known hp' => rw [hp] at hp'; cases hp'
      | learned hp' => rw [hp] at hp'; cases hp'
      | failed hp' => rw [hp] at hp'; cases hp'
    rcases runs_bind.mp h with ⟨e, rfl, hg⟩ | ⟨fs, gs, inv', u, rfl, hg, -⟩
    · obtain ⟨hq, hw, he⟩ := hshut hg
      cases he
      exact ⟨hq, hw, rfl⟩
    · cases (hshut hg).2.2
  by_cases ha : op = .setLinkWidthAuto
  · subst ha
    rw [Operation.perform_linkWidthAuto] at h
    exact hgate h
  · rw [Operation.perform_eq s op ha] at h
    cases hdis : op.disorder? with
    | some cause =>
      rw [hdis] at h
      obtain ⟨rfl, rfl, rfl⟩ := runs_throw.mp h
      exact ⟨fun x hx => (by cases hx), rfl, rfl⟩
    | none =>
      rw [hdis] at h
      exact hgate h

/-- In a process that came to know its machine, on a machine with plain failures: an operation that the
    gate lets pass is refused for its arguments if and only if they are none for this machine
    (`Operation.Misused`). Whatever is refused, for its arguments or for the version, nothing was asked
    but whether the caller may pass and what is remembered, and nothing has changed. The same holds of
    every operation of a caller without privilege, who is denied; only link widths the wrong way round
    are refused before that. -/
theorem refused_requests_touch_nothing (M : Machine μ) (hM : M.Plain) (m : μ) (moves : List (Move μ))
    (s : Session) (op : Operation) :
    let w := after M moves ⟨m, {}⟩
    let ended := World.run M (op.perform s) w
    let untouched := ended.2 = w ∧ Questions (World.transcript M (op.perform s) w)
    (∀ inv, w.memory.inventory = some inv → w.memory.disabled = false → M.isPrivileged w.machine = true →
      ((World.run M (s.gate op.asks) w).1 = .ok inv →
        ((∃ cause, ended.1 = .error (.invalidArgument cause)) ↔
          op.Misused inv.processor inv.topology inv.cpus)) ∧
      ∀ e, ended.1 = .error e → e.isRefusal = true → untouched) ∧
    (M.isPrivileged w.machine = false → untouched ∧ ended.1 = .error (match op.disorder? with
      | some cause => .invalidArgument cause
      | none => .denied .notRoot)) := by
  intro w ended untouched
  have h := runs M (op.perform s) w
  refine ⟨fun inv hi hd hp => ?_, fun hp => ?_⟩
  · have hS : inv.Sound := sound_moves moves _ (fun _ hi => by cases hi) inv hi
    have hdec := runs_operation hM hS hp hd hi h
    refine ⟨fun hpass => hdec.refused_iff ?_, fun e he href => hdec.untouched he href⟩
    obtain ⟨-, -, ⟨-, hv⟩ | ⟨id, -, -, he⟩⟩ := runs_gate_known hp hd hi (runs M (s.gate op.asks) w)
    · exact hv
    · rw [hpass] at he
      cases he
  · obtain ⟨hq, hw, hr⟩ := runs_unprivileged hp h
    exact ⟨⟨hw, hq⟩, hr⟩

/-- A process that passed the gate of the machine in good health. -/
def entered : World Simulation.State :=
  after Simulation.machine [.step ⟨Simulation.config⟩ (.gate none)] ⟨Simulation.sound, {}⟩

theorem entered_refuses_absent_socket :
    let op : Operation := .socketPower 7
    let s : Session := ⟨Simulation.config⟩
    Simulation.machine.Plain ∧
      (∃ cause, (World.run Simulation.machine (op.perform s) entered).1 = .error (.invalidArgument cause)) ∧
      (World.run Simulation.machine (op.perform s) entered).2 = entered ∧
      Questions (World.transcript Simulation.machine (op.perform s) entered) ∧
      (World.run Simulation.machine (op.perform s) ⟨{ Simulation.sound with privileged := false }, {}⟩).1 =
        .error (.denied .notRoot) := by
  intro op s
  obtain ⟨firmware, hdoor⟩ := Simulation.sound_healthy.door (s := s) rfl
  obtain ⟨m, mem, hrun, hk, hserv⟩ := hdoor none
  have hw : entered = ⟨m, mem⟩ := by
    show (World.run Simulation.machine ((fun _ => Answer.nothing) <$> s.gate none) ⟨Simulation.sound, {}⟩).2 = _
    rw [map_eq_pure_bind, run_bind_ok hrun]
    rfl
  have hi : entered.memory.inventory =
      some ⟨Simulation.sound.processor, Topology.crossedTable, Simulation.sound.cpus, ⟨firmware, 3⟩⟩ := by
    rw [hw]
    exact hk.inventory
  have hd : entered.memory.disabled = false := by
    rw [hw]
    exact hk.working
  have hp : Simulation.machine.isPrivileged entered.machine = true := by
    rw [hw]
    exact hserv.privileged
  have hpass : (World.run Simulation.machine (s.gate op.asks) entered).1 =
      .ok ⟨Simulation.sound.processor, Topology.crossedTable, Simulation.sound.cpus, ⟨firmware, 3⟩⟩ := by
    rw [hw, Simulation.Site.run_gate_known hserv hk]
    rfl
  obtain ⟨hiff, huntouched⟩ := (refused_requests_touch_nothing Simulation.machine Simulation.machine_plain
    Simulation.sound [.step s (.gate none)] s op).1 _ hi hd hp
  obtain ⟨cause, hr⟩ := (hiff hpass).mpr (by show Topology.crossedTable.socketCount ≤ 7; decide)
  obtain ⟨hsame, hq⟩ := huntouched _ hr rfl
  refine ⟨Simulation.machine_plain, ⟨cause, hr⟩, hsame, hq, ?_⟩
  exact ((refused_requests_touch_nothing Simulation.machine Simulation.machine_plain
    { Simulation.sound with privileged := false } [] s op).2 rfl).2

end World

end FirmwareMailbox
