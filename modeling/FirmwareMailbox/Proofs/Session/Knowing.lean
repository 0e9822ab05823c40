/-
  FirmwareMailbox.Proofs.Session.Knowing — operations in a process that knows its machine.

  An operation that is not refused for the order of its arguments passes the gate and goes on from the
  inventory that the gate hands out (`runs_perform`). The inventory is remembered by then, so what
  follows asks the process a few questions at most and runs the errand (`runs_rest`). A theorem about
  operations is so one about the gate and one about errands, and of the machine an errand sees the mailbox
  tiles of the sockets that the operation is for (`Operation.sockets`).

  The gate itself is put together from questions, a discovery and a negotiation (`Job.Closed.gate`), and an
  errand from exchanges with the mailboxes of those sockets (`Job.Closed.errand`).
-/

import FirmwareMailbox.Proofs.Cpu.Table
import FirmwareMailbox.Proofs.Session.Gating

namespace FirmwareMailbox

/-- Asks whether the gate opens. -/
def Request.isQuestion : Request → Bool
  | .isPrivileged | .isDisabled | .recall => true
  | _ => false

/-- Asks something that the gate has to know of the system or of the memory, or notes it down. -/
def Request.ofGate : Request → Bool
  | .isPrivileged | .isDisabled | .recall | .processor | .devices | .cpus | .publish _ | .disable => true
  | _ => false

/-- The library refuses the caller, the machine or the arguments. -/
def Error.ofLibrary : Error → Bool
  | .denied .notRoot | .unsupported _ | .versionMismatch .. | .invalidArgument _ | .topology _ => true
  | _ => false

/-- What goes with every question, with every discovery and with every negotiation goes with the gate. -/
theorem Job.Closed.gate {P : Error → Prop} {C : ∀ {α : Type}, Job α → Prop} (hC : Closed P C)
    (hP : ∀ e : Error, e.ofLibrary = true → P e) (hq : ∀ q : Request, q.ofGate = true → C (Job.ask q))
    (hdevices : C Job.devices) (hcpus : C Job.cpus) (hd : ∀ devices, C (Topology.ofDevices devices))
    (s : Session) (hn : ∀ t, C (s.negotiate t)) (m? : Option MessageId) : C (s.gate m?) := by
  have hlearn : C s.learn := by
    rw [Session.learn_eq]
    exact hC.bind (Session.survey_of_closed hC (fun _ => hP _ rfl) (hq .processor rfl) hdevices hd hcpus)
      fun _ => hC.bind (hn _) fun _ => hC.pure _
  rw [Session.gate_eq]
  refine hC.bind (hq .isPrivileged rfl) fun privileged => hC.bind ?_ fun gaveUp => hC.bind ?_ fun inv =>
    hC.lift fun e he => ?_
  · split
    · exact hq .isDisabled rfl
    · exact hC.throw (hP _ rfl)
  · split
    · exact hC.throw (hP _ rfl)
    · refine hC.bind (hq .recall rfl) fun known => ?_
      cases known with
      | some inv => exact hC.pure inv
      | none => exact hC.bind hlearn fun inv => hC.bind (hq (.publish inv) rfl) fun _ => hC.pure inv
  · obtain ⟨id, -, rfl⟩ := Session.letPass_eq_error he
    exact hP _ rfl

/-- A kind of programs has the gate as soon as it has the exchanges of a probe. -/
theorem Program.Closed.gate {C : ∀ {α : Type}, Program α → Prop} (hC : Closed C)
    (hq : ∀ q : Request, q.ofGate = true → C (request q))
    (hd : ∀ devices, C (Topology.ofDevices devices).run) (s : Session)
    (hx : ∀ d (m : Message), m.Fits → C (m.exchange s.config d none).run) (m? : Option MessageId) :
    C (s.gate m?).run := by
  have hnegotiate : ∀ t, C (s.negotiate t).run := by
    intro t
    rw [Session.negotiate_eq]
    refine hC.bind (hC.negotiation s.config t fun _ _ _ m hm _ => hx _ m hm) fun x => ?_
    cases x with
    | ok caps => exact hC.done _
    | error e =>
      unfold Session.conclude
      dsimp only
      split
      · exact hC.bind (hq .disable rfl) fun _ => hC.done _
      · exact hC.done _
  exact hC.job.gate (fun _ _ => trivial) (fun q h => hC.bind (hq q h) fun _ => hC.done _) (hq .devices rfl)
    (hq .cpus rfl) hd s hnegotiate m?

namespace Operation

/-- What an operation does with the inventory. Letting the widths of the links float passes the gate once
    more. -/
def rest (s : Session) (inv : Inventory) : Operation → Job Answer
  | .setLinkWidthAuto => (setLinkWidth (LinkWidth.floor inv.processor) .x16).perform s
  | op => do
    let e ← op.errand inv
    e.perform s inv

theorem rest_eq (s : Session) (inv : Inventory) {op : Operation} (h : op ≠ .setLinkWidthAuto) :
    op.rest s inv = (do
      let e ← op.errand inv
      e.perform s inv) := by
  cases op
  case setLinkWidthAuto => exact absurd rfl h
  all_goals rfl

theorem perform_gate (s : Session) {op : Operation} (h : op.disorder? = none) :
    op.perform s = s.gate op.asks >>= fun inv => op.rest s inv := by
  by_cases ha : op = .setLinkWidthAuto
  · subst ha
    exact perform_linkWidthAuto s
  · rw [perform_eq s op ha, h]
    exact congrArg (s.gate op.asks >>= ·) (funext fun inv => (rest_eq s inv ha).symm)

theorem perform_disorder (s : Session) {op : Operation} {cause : Misuse} (h : op.disorder? = some cause) :
    op.perform s = throw (.invalidArgument cause) := by
  have ha : op ≠ .setLinkWidthAuto := by
    rintro rfl
    cases h
  rw [perform_eq s op ha, h]

/-- The sockets that an operation is for: the one it names, that of its CPU, that of the tile that has its
    bus, or every one. -/
def sockets (inv : Inventory) : Operation → List Nat
  | .socketPower n | .powerLimit n | .maxPowerLimit n | .procHot n | .fabricClocks n | .fabricClock n
  | .memoryClock n | .coreClockLimit n | .activePercent n | .ddrBandwidth n | .ddrMax n | .ddrUsed n
  | .ddrUsedPercent n | .setPowerLimit n _ | .setSocketBoost n _ | .setFabricState n _ => [n]
  | .cpuBoost cpu | .setCpuBoost cpu _ => (inv.cpus.find? cpu).toList.map (·.socket)
  | .setInterfaceState bus _ => (inv.topology.tiles.find? (·.covers bus)).toList.map (·.socket)
  | .setSystemBoost _ | .setLinkWidth .. | .setLinkWidthAuto => List.range inv.topology.socketCount
  | .firmwareVersion | .interfaceVersion | .busAfter _ | .lowestBuses => []

end Operation

/-- The sockets that an errand goes to. -/
def Errand.sockets (inv : Inventory) : Errand → List Nat
  | .known _ => []
  | .send n _ _ => [n]
  | .sendAll _ => List.range inv.topology.socketCount

/-- An errand goes to the sockets that the operation is for. -/
theorem Operation.errand_sockets {op : Operation} {inv : Inventory} {e : Errand}
    (h : op.errand inv = .ok e) : e.sockets inv = op.sockets inv := by
  have hwidths : ∀ {min max}, Errand.widths inv min max = .ok e →
      e.sockets inv = List.range inv.topology.socketCount := by
    intro min max h
    obtain rfl := ok_of_widths h
    rfl
  have hentry : ∀ {cpu : Nat} {entry : CpuEntry}, inv.cpus.get cpu = .ok entry →
      [entry.socket] = (inv.cpus.find? cpu).toList.map (·.socket) := by
    intro cpu entry hget
    rw [CpuTable.get_eq_ok.mp hget]
    rfl
  cases op
  case cpuBoost cpu =>
    obtain ⟨entry, apicId, hget, -, rfl⟩ := ok_of_cpu h
    exact hentry hget
  case setCpuBoost cpu mhz =>
    obtain ⟨entry, apicId, hget, -, rfl⟩ := ok_of_cpu h
    exact hentry hget
  case setInterfaceState bus p =>
    obtain ⟨tile, htile, rfl⟩ := ok_of_bus h
    unfold Topology.busTile at htile
    split at htile <;> cases htile
    rename_i hf
    rw [sockets, hf]
    rfl
  case setLinkWidth min max => exact hwidths h
  case setLinkWidthAuto => exact hwidths h
  all_goals
    cases h
    rfl

/-- What goes with every exchange of the operation's message with the mailboxes that it is for goes with its
    errand. -/
theorem Job.Closed.errand {P : Error → Prop} {C : ∀ {α : Type}, Job α → Prop} (hC : Closed P C)
    (hP : ∀ cause, P (.invalidArgument cause)) (s : Session) (inv : Inventory) (op : Operation)
    (hx : ∀ n ∈ op.sockets inv, ∀ tile, inv.topology.mailboxTile n = .ok tile → ∀ m : Message, m.Fits →
      op.message? = some m.id → C (m.exchange s.config tile.handle inv.capabilities.highestMessage)) :
    C (liftM (op.errand inv) >>= fun x => x.perform s inv) := by
  have hmisuse : ∀ e : Error, e.IsMisuse → P e := by
    rintro e ⟨cause, rfl⟩
    exact hP cause
  obtain ⟨hrefused, hlawful⟩ := op.errand_lawful inv
  refine hC.lift_bind (fun e he => hmisuse e (hrefused e he)) fun x he => ?_
  have hx' := hlawful x he
  rw [← Operation.errand_sockets he] at hx
  obtain ⟨hid, hfits⟩ := Operation.errand_message he
  have hdeliver : ∀ n ∈ x.sockets inv, ∀ m, x.message? = some m → C (s.deliver inv n m) := by
    intro n hn m hm
    rw [hm, Option.map_some] at hid
    exact hC.lift_bind (inv.topology.mailboxTile_fails hP n) fun tile ht => hx n hn tile ht m (hfits m hm) hid.symm
  cases x with
  | known a => exact hC.lift fun e he => hmisuse e (hx' e he)
  | send n m read =>
    refine hC.check (hdeliver n (List.mem_singleton_self n) m rfl) fun es words hw e he => ?_
    -- the response is as long as was asked for, so there is a word at every place that is read
    have hlength : words.length = m.responseLength := by
      obtain ⟨_, _, tile, -, -, hsent⟩ := Job.yields_bind_ok.mp hw
      exact Message.length_of_yields hsent
    have hcut : words.length < m.responseLength := (hx' words e he).1
    omega
  | sendAll m =>
    have hfrom : ∀ k i, i + k ≤ inv.topology.socketCount → C (s.deliverFrom inv m i k) := by
      intro k
      induction k with
      | zero => exact fun _ _ => hC.pure ()
      | succ k ih =>
        intro i hi
        exact hC.bind (hdeliver i (List.mem_range.mpr (by omega)) m rfl) fun _ => ih (i + 1) (by omega)
    exact hC.bind (hfrom inv.topology.socketCount 0 (by omega)) fun _ => hC.pure _

theorem Program.Closed.errand {C : ∀ {α : Type}, Program α → Prop} (hC : Closed C) (s : Session)
    (inv : Inventory) (op : Operation) (hx : ∀ n ∈ op.sockets inv, ∀ tile,
      inv.topology.mailboxTile n = .ok tile → ∀ m : Message, m.Fits →
        C (m.exchange s.config tile.handle inv.capabilities.highestMessage).run) :
    C (liftM (op.errand inv) >>= fun e => e.perform s inv).run :=
  hC.job.errand (fun _ => trivial) s inv op fun n hn tile ht m hm _ => hx n hn tile ht m hm

namespace World

variable {μ : Type} {M : Machine μ} {s : Session} {w w' : World μ} {es : List Event} {inv : Inventory}
  {op : Operation} {r : Except Error Answer}

/-- An operation is refused for the order of its arguments, or at the gate, or goes on from the inventory
    that the process remembers then. -/
theorem runs_perform (h : Runs M (op.perform s) w es r w') :
    (∃ cause, op.disorder? = some cause ∧ es = [] ∧ r = .error (.invalidArgument cause) ∧ w' = w) ∨
      (∃ e, r = .error e ∧ Runs M (s.gate op.asks) w es (.error e) w') ∨
      ∃ gs fs inv u, es = gs ++ fs ∧ Runs M (s.gate op.asks) w gs (.ok inv) u ∧
        u.memory.inventory = some inv ∧ Runs M (op.rest s inv) u fs r w' := by
  cases hd : op.disorder? with
  | some cause =>
    rw [Operation.perform_disorder s hd] at h
    obtain ⟨rfl, rfl, rfl⟩ := runs_throw.mp h
    exact Or.inl ⟨cause, rfl, rfl, rfl, rfl⟩
  | none =>
    rw [Operation.perform_gate s hd] at h
    rcases runs_bind.mp h with ⟨e, rfl, hg⟩ | ⟨gs, fs, inv, u, rfl, hg, hrest⟩
    · exact Or.inr (Or.inl ⟨e, rfl, hg⟩)
    · exact Or.inr (Or.inr ⟨gs, fs, inv, u, rfl, hg, (Session.gate_ok hg).1, hrest⟩)

/-- The gate of a process that knows its machine asks, changes nothing, and hands out what is known. -/
theorem runs_gate_asks (hi : w.memory.inventory = some inv) {m? : Option MessageId}
    {x : Except Error Inventory} (h : Runs M (s.gate m?) w es x w') :
    w' = w ∧ (∀ y ∈ es, y.request.isQuestion = true) ∧ ∀ inv', x = .ok inv' → inv' = inv := by
  obtain ⟨hw, hq, hok⟩ := gate_known (M := M) hi s m?
  rw [h.run] at hw hok
  rw [h.transcript] at hq
  refine ⟨hw, fun y hy => ?_, hok⟩
  rcases hq y hy with he | he | he <;> rw [he] <;> rfl

/-- Behind the gate, a process that knows its machine asks a few questions at most; then it is refused at
    the gate once more, or runs its errand. -/
theorem runs_rest (hi : w.memory.inventory = some inv) (h : Runs M (op.rest s inv) w es r w') :
    ∃ qs fs, es = qs ++ fs ∧ (∀ x ∈ qs, x.request.isQuestion = true) ∧
      ((fs = [] ∧ w' = w ∧ ∃ m? e, r = .error e ∧ Runs M (s.gate m?) w qs (.error e) w) ∨
        Runs M (liftM (op.errand inv) >>= fun e => e.perform s inv) w fs r w') := by
  by_cases ha : op = .setLinkWidthAuto
  · subst ha
    change Runs M ((Operation.setLinkWidth (LinkWidth.floor inv.processor) .x16).perform s) w es r w' at h
    rw [Operation.perform_gate s (Operation.disorder?_widest _)] at h
    rcases runs_bind.mp h with ⟨e, rfl, hg⟩ | ⟨gs, fs, inv', u, rfl, hg, hrest⟩
    · obtain ⟨rfl, hq, -⟩ := runs_gate_asks hi hg
      exact ⟨es, [], (List.append_nil _).symm, hq, Or.inl ⟨rfl, rfl, _, e, rfl, hg⟩⟩
    · obtain ⟨rfl, hq, hok⟩ := runs_gate_asks hi hg
      obtain rfl := hok inv' rfl
      exact ⟨gs, fs, rfl, hq, Or.inr hrest⟩
  · rw [Operation.rest_eq s inv ha] at h
    exact ⟨[], es, rfl, by simp, Or.inr h⟩

end World

end FirmwareMailbox
