/-
  FirmwareMailbox.Proofs.Session.Assembled — what a session does, put together from its parts.

  Whatever a session does with the machine, it does by passing the gate and by delivering messages;
  the rest is arithmetic on what came back (`Operation.assembled`). What an exporter asks passes the gate for
  each message that it delivers (`Exporter.ask_exchanged`). So a kind of programs that is closed under what
  follows what has every operation as soon as it has the gate and every exchange (`Program.Closed.assembled`),
  and with them refreshes. A negotiation needs only exchanges, and has few errors of its own
  (`Job.Closed.negotiation`). A message that an operation delivers carries as many words as the firmware reads
  of it, and asks for as many as the firmware answers (`Message.Fits`).
-/

import FirmwareMailbox.Proofs.Message.Transaction
import FirmwareMailbox.Proofs.Topology.Lookup
import FirmwareMailbox.Session.Operation
import FirmwareMailbox.Telemetry.Exporter

namespace FirmwareMailbox

/-- How many slots the firmware reads for a message. -/
def MessageId.argumentCount : MessageId → Nat
  | .test | .setSocketPowerLimit | .setBoostLimit | .setBoostLimitSocket | .getBoostLimit
  | .setXgmiLinkWidth | .setDfPstate | .setNbioDpmLevel => 1
  | _ => 0

/-- How many words the firmware answers to a message. -/
def MessageId.responseCount : MessageId → Nat
  | .setSocketPowerLimit | .setBoostLimit | .setBoostLimitSocket | .setXgmiLinkWidth | .setDfPstate
  | .autoDfPstate | .setNbioDpmLevel => 0
  | .getFclkMclk => 2
  | _ => 1

/-- The message carries what the firmware reads and asks for what the firmware answers. -/
def Message.Fits (m : Message) : Prop :=
  m.args.length = m.id.argumentCount ∧ m.responseLength = m.id.responseCount

/-- A message that fits has room in the slots. -/
theorem Message.Fits.sizes {m : Message} (h : m.Fits) :
    m.args.length ≤ Register.slotCount ∧ m.responseLength ≤ Register.slotCount := by
  rw [h.1, h.2]
  cases m.id <;> decide

/-- The messages of a negotiation. -/
def Capabilities.probes : List MessageId := [.test, .getSmuVersion, .getInterfaceVersion]

/-- A job put together from passages of the session's gate, deliveries of messages of `P`, and values
    or errors. -/
inductive Assembled (s : Session) (P : Message → Prop) : {α : Type} → Job α → Prop
  | lift {α : Type} (x : Except Error α) : Assembled s P (liftM x : Job α)
  | gate (m? : Option MessageId) : Assembled s P (s.gate m?)
  | deliver (inv : Inventory) (socket : Nat) {m : Message} : P m → Assembled s P (s.deliver inv socket m)
  | bind {α β : Type} {j : Job α} {f : α → Job β} : Assembled s P j → (∀ a, Assembled s P (f a)) →
      Assembled s P (j >>= f)

namespace Assembled

variable {s : Session} {P Q : Message → Prop} {α β : Type} {j : Job α}

theorem mono (hPQ : ∀ m, P m → Q m) (h : Assembled s P j) : Assembled s Q j := by
  induction h with
  | lift x => exact .lift x
  | gate m? => exact .gate m?
  | deliver inv n hm => exact .deliver inv n (hPQ _ hm)
  | bind _ _ ih ihf => exact .bind ih ihf

theorem map (f : α → β) (h : Assembled s P j) : Assembled s P (f <$> j) := by
  rw [map_eq_pure_bind]
  exact .bind h fun a => .lift (.ok (f a))

theorem exchange (n : Nat) {m : Message} (hm : P m) : Assembled s P (s.exchange n m) :=
  .bind (.gate _) fun inv => .deliver inv n hm

theorem deliverAll (inv : Inventory) {m : Message} (hm : P m) : Assembled s P (s.deliverAll inv m) := by
  have h : ∀ n i, Assembled s P (s.deliverFrom inv m i n) := by
    intro n
    induction n with
    | zero => exact fun _ => .lift (.ok ())
    | succ n ih => exact fun i => .bind (.deliver inv i hm) fun _ => ih (i + 1)
  exact h _ _

end Assembled

/-- A job put together from exchanges of messages of `P`, each behind a gate of its own, and values or
    errors. -/
inductive Exchanged (s : Session) (P : Message → Prop) : {α : Type} → Job α → Prop
  | lift {α : Type} (x : Except Error α) : Exchanged s P (liftM x : Job α)
  | exchange (socket : Nat) {m : Message} : P m → Exchanged s P (s.exchange socket m)
  | bind {α β : Type} {j : Job α} {f : α → Job β} : Exchanged s P j → (∀ a, Exchanged s P (f a)) →
      Exchanged s P (j >>= f)

theorem Exchanged.assembled {s : Session} {P : Message → Prop} {α : Type} {j : Job α} (h : Exchanged s P j) :
    Assembled s P j := by
  induction h with
  | lift x => exact .lift x
  | exchange n hm => exact .exchange n hm
  | bind _ _ ih ihf => exact .bind ih ihf

namespace Session

variable (s : Session)

theorem readWord_exchanged (n : Nat) {m : MessageId} (ha : m.argumentCount = 0)
    (hr : m.responseCount = 1) : Exchanged s Message.Fits (s.readWord n m) :=
  .bind (.exchange n ⟨ha.symm, hr.symm⟩) fun words => .lift (Job.word words 0)

theorem fabricClocks_exchanged (n : Nat) : Exchanged s Message.Fits (s.fabricClocks n) :=
  .bind (.exchange n ⟨rfl, rfl⟩) fun words => .bind (.lift (Job.word words 0)) fun _ =>
    .bind (.lift (Job.word words 1)) fun _ => .lift (.ok _)

theorem ddrBandwidth_exchanged (n : Nat) : Exchanged s Message.Fits (s.ddrBandwidth n) :=
  .bind (s.readWord_exchanged n rfl rfl) fun _ => .lift (.ok _)

theorem procHot_exchanged (n : Nat) : Exchanged s Message.Fits (s.procHot n) :=
  .bind (s.readWord_exchanged n rfl rfl) fun _ => .lift (.ok _)

/-- Behind the gate and with an entry of the CPU table in hand, a message is sent for one CPU. -/
theorem cpuBoost_assembled (cpu : Nat) : Assembled s Message.Fits (s.cpuBoost cpu) :=
  .bind (.gate _) fun inv => .bind (.lift (inv.cpus.get cpu)) fun entry =>
    .bind (.lift (narrowApicId cpu entry.apicId)) fun _ =>
    .bind (.deliver inv entry.socket ⟨rfl, rfl⟩) fun words => .lift (Job.word words 0)

theorem setCpuBoost_assembled (cpu : Nat) (mhz : UInt32) :
    Assembled s Message.Fits (s.setCpuBoost cpu mhz) :=
  .bind (.gate _) fun inv => .bind (.lift (inv.cpus.get cpu)) fun entry =>
    .bind (.lift (narrowApicId cpu entry.apicId)) fun _ =>
    .bind (.deliver inv entry.socket ⟨rfl, rfl⟩) fun _ => .lift (.ok ())

theorem setFabricState_assembled (n : Nat) (p : FabricState) :
    Assembled s Message.Fits (s.setFabricState n p) := by
  refine .bind (.gate _) fun inv => .bind (.deliver inv n ?_) fun _ => .lift (.ok ())
  cases p <;> exact ⟨rfl, rfl⟩

theorem setInterfaceState_assembled (bus : UInt8) (p : InterfaceState) :
    Assembled s Message.Fits (s.setInterfaceState bus p) := by
  refine .bind (.gate _) fun inv => .bind (.lift (inv.topology.busTile bus)) fun tile => ?_
  dsimp only
  split
  · exact .lift (.error _)
  · exact .bind (.deliver inv tile.socket ⟨rfl, rfl⟩) fun _ => .lift (.ok ())

/-- What bounding the link widths does behind the gate. -/
def boundWidths (min max : LinkWidth) (inv : Inventory) : Job Unit := do
  let floor := LinkWidth.floor inv.processor
  if min < floor then throw (.invalidArgument (.belowFloor min floor))
  s.deliverAll inv { id := .setXgmiLinkWidth, args :=
    [Layout.encode ({ min := min.widthClass, max := max.widthClass } : WidthRange)] }

/-- The order of the two widths is all that is wrong with a range of them. -/
theorem setLinkWidth_eq (min max : LinkWidth) : s.setLinkWidth min max =
    if max < min then throw (.invalidArgument (.widths min max .widthOrder))
    else s.gate (some .setXgmiLinkWidth) >>= s.boundWidths min max := by
  have hfault : Layout.fault? ({ min := min.widthClass, max := max.widthClass } : WidthRange) =
      if max < min then some .widthOrder else none := by
    cases min <;> cases max <;> rfl
  unfold setLinkWidth
  dsimp only
  rw [hfault]
  by_cases h : max < min
  · rw [if_pos h, if_pos h]
  · rw [if_neg h, if_neg h]
    rfl

theorem setLinkWidth_assembled (min max : LinkWidth) :
    Assembled s Message.Fits (s.setLinkWidth min max) := by
  rw [setLinkWidth_eq]
  split
  · exact .lift (.error _)
  · refine .bind (.gate _) fun inv => ?_
    unfold boundWidths
    dsimp only
    split
    · exact .lift (.error _)
    · exact .deliverAll inv ⟨rfl, rfl⟩

end Session

/-- Every operation is put together from the gate and deliveries of messages that fit. -/
theorem Operation.assembled (s : Session) (op : Operation) : Assembled s Message.Fits (op.perform s) := by
  cases op
  case procHot n => exact (s.procHot_exchanged n).assembled.map _
  case fabricClocks n => exact (s.fabricClocks_exchanged n).assembled.map _
  case fabricClock n => exact Assembled.map _ (.bind (s.fabricClocks_exchanged n).assembled fun c => .lift (.ok _))
  case memoryClock n => exact Assembled.map _ (.bind (s.fabricClocks_exchanged n).assembled fun c => .lift (.ok _))
  case ddrBandwidth n => exact (s.ddrBandwidth_exchanged n).assembled.map _
  case ddrMax n => exact Assembled.map _ (.bind (s.ddrBandwidth_exchanged n).assembled fun b => .lift (.ok _))
  case ddrUsed n => exact Assembled.map _ (.bind (s.ddrBandwidth_exchanged n).assembled fun b => .lift (.ok _))
  case ddrUsedPercent n =>
    exact Assembled.map _ (.bind (s.ddrBandwidth_exchanged n).assembled fun b => .lift (.ok _))
  case firmwareVersion => exact Assembled.map _ (.bind (.gate _) fun inv => .lift (.ok _))
  case interfaceVersion => exact Assembled.map _ (.bind (.gate _) fun inv => .lift (.ok _))
  case busAfter i => exact Assembled.map _ (.bind (.gate _) fun inv => .lift (inv.topology.busAfter i))
  case lowestBuses => exact Assembled.map _ (.bind (.gate _) fun inv => .lift (.ok _))
  case cpuBoost cpu => exact (s.cpuBoost_assembled cpu).map _
  case setPowerLimit n limit =>
    exact Assembled.map _ (.bind (.exchange n ⟨rfl, rfl⟩) fun _ => .lift (.ok ()))
  case setCpuBoost cpu mhz => exact (s.setCpuBoost_assembled cpu mhz).map _
  case setSocketBoost n mhz =>
    exact Assembled.map _ (.bind (.exchange n ⟨rfl, rfl⟩) fun _ => .lift (.ok ()))
  case setSystemBoost mhz =>
    exact Assembled.map _ (.bind (.gate _) fun inv => .deliverAll inv ⟨rfl, rfl⟩)
  case setFabricState n p => exact (s.setFabricState_assembled n p).map _
  case setInterfaceState b p => exact (s.setInterfaceState_assembled b p).map _
  case setLinkWidth min max => exact (s.setLinkWidth_assembled min max).map _
  case setLinkWidthAuto =>
    exact Assembled.map _ (.bind (.gate _) fun inv => s.setLinkWidth_assembled _ _)
  all_goals exact (s.readWord_exchanged _ rfl rfl).assembled.map _

/-- What an exporter asks a socket is put together from exchanges. -/
theorem Exporter.ask_exchanged (s : Session) (n : Nat) (m : MessageId) :
    Exchanged s Message.Fits (Exporter.ask s n m) := by
  cases m
  case getFclkMclk => exact .bind (s.fabricClocks_exchanged n) fun _ => .lift (.ok _)
  case getProcHot => exact .bind (s.procHot_exchanged n) fun _ => .lift (.ok _)
  case getDdrBandwidth => exact .bind (s.ddrBandwidth_exchanged n) fun _ => .lift (.ok _)
  all_goals first
    | exact .lift (.ok [])
    | exact .bind (s.readWord_exchanged n rfl rfl) fun _ => .lift (.ok _)

theorem Exporter.ask_assembled (s : Session) (n : Nat) (m : MessageId) :
    Assembled s Message.Fits (Exporter.ask s n m) :=
  (ask_exchanged s n m).assembled

/-- A step forgets what was learned, or is put together from the gate and deliveries of any
    messages. -/
theorem Step.assembled (s : Session) (st : Step) (h : st ≠ .forget) :
    Assembled s (fun _ => True) (st.perform s) := by
  cases st with
  | operation op => exact (op.assembled s).mono fun _ _ => trivial
  | gate m? => exact (Assembled.gate m?).map _
  | exchange n m => exact (Assembled.exchange n trivial).map _
  | forget => exact absurd rfl h

/-! ## Kinds of jobs and of programs -/

/-- What a negotiation refuses of its own: a socket that is not there, a machine without sockets, another
    word than the test asked for, and no interface. -/
inductive Capabilities.Refusal : Error → Prop
  | misuse (cause : Misuse) : Refusal (.invalidArgument cause)
  | noSocket : Refusal (.topology .noSocket)
  | testAnswer (socket : Nat) (expected received : UInt32) :
      Refusal (.unsupported (.testAnswer socket expected received))
  | noInterface : Refusal (.unsupported .noInterface)

/-- A negotiation is exchange after exchange with the mailboxes, of messages of its own that fit. Every
    answer has the one word that it was asked for. -/
theorem Job.Closed.negotiation {P : Error → Prop} {C : ∀ {α : Type}, Job α → Prop} (hC : Closed P C)
    (hP : ∀ e, Capabilities.Refusal e → P e) (c : Config) (t : Topology)
    (hx : ∀ n tile, t.mailboxTile n = .ok tile → ∀ m : Message, m.Fits → m.id ∈ Capabilities.probes →
      C (m.exchange c tile.handle none)) : C (Capabilities.negotiate c t) := by
  have htile : ∀ n, FailsWith P (t.mailboxTile n) := t.mailboxTile_fails fun _ => hP _ (.misuse _)
  have hword : ∀ {n tile}, t.mailboxTile n = .ok tile → ∀ m : Message,
      { m with responseLength := 1 : Message }.Fits → m.id ∈ Capabilities.probes →
      C (Capabilities.askWord c tile m) := by
    refine fun ht m hm hid => hC.check (hx _ _ ht _ hm hid) fun es words h e he => ?_
    have hlength : words.length = 1 := Message.length_of_yields h
    have hshort : words.length ≤ 0 := (Job.word_eq_error he).1
    omega
  have htest : ∀ {n tile}, t.mailboxTile n = .ok tile → ∀ i, C (Capabilities.testSocket c i tile) := by
    refine fun ht i => hC.bind (hword ht _ ⟨rfl, rfl⟩ (by decide)) fun answer => ?_
    split
    · exact hC.throw (hP _ (.testAnswer ..))
    · exact hC.pure ()
  have htests : ∀ n i, C (Capabilities.testSockets c t i n) := by
    intro n
    induction n with
    | zero => exact fun _ => hC.pure ()
    | succ n ih => exact fun i => hC.lift_bind (htile i) fun tile ht => hC.bind (htest ht i) fun _ => ih (i + 1)
  unfold Capabilities.negotiate
  split
  · exact hC.throw (hP _ .noSocket)
  · refine hC.lift_bind (htile 0) fun tile ht => hC.bind (htest ht 0) fun _ => hC.bind ?_ fun versions =>
      hC.bind (htests _ 1) fun _ => ?_
    · exact hC.bind (hword ht _ ⟨rfl, rfl⟩ (by decide)) fun _ =>
        hC.bind (hword ht _ ⟨rfl, rfl⟩ (by decide)) fun _ => hC.pure _
    · dsimp only
      split
      · exact hC.throw (hP _ .noInterface)
      · exact hC.pure _

namespace Program.Closed

variable {C : ∀ {α : Type}, Program α → Prop} (hC : Closed C)

include hC

theorem negotiation (c : Config) (t : Topology) (hx : ∀ n tile, t.mailboxTile n = .ok tile →
    ∀ m : Message, m.Fits → m.id ∈ Capabilities.probes → C (m.exchange c tile.handle none).run) :
    C (Capabilities.negotiate c t).run :=
  hC.job.negotiation (fun _ _ => trivial) c t hx

/-- What holds of the gate and of every exchange holds of what is put together from them. -/
theorem assembled {α : Type} {s : Session} {P : Message → Prop} (hg : ∀ m?, C (s.gate m?).run)
    (hx : ∀ d m highest, P m → C (Message.exchange s.config d m highest).run) {j : Job α}
    (h : Assembled s P j) : C j.run := by
  induction h with
  | lift x => exact hC.done x
  | gate m? => exact hg m?
  | deliver inv n hm => exact hC.job_bind (hC.done _) fun tile => hx _ _ _ hm
  | bind _ _ ih ihf => exact hC.job_bind ih ihf

/-- What holds of every exchange behind its gate holds of what is put together from them. -/
theorem exchanged {α : Type} {s : Session} {P : Message → Prop} (hx : ∀ n m, P m → C (s.exchange n m).run)
    {j : Job α} (h : Exchanged s P j) : C j.run := by
  induction h with
  | lift x => exact hC.done x
  | exchange n hm => exact hx n _ hm
  | bind _ _ ih ihf => exact hC.job_bind ih ihf

theorem refreshFrom (ha : ∀ s n m, C (Exporter.ask s n m).run) (e : Exporter) (m : MessageId) (i n : Nat) :
    C (e.refreshFrom m i n) := by
  induction n generalizing e i with
  | zero => exact hC.done e
  | succ n ih =>
    refine hC.bind (ha e.session i m) fun x => ?_
    cases x with
    | ok readings => exact ih _ (i + 1)
    | error failure =>
      dsimp only
      split
      · exact hC.done _
      · exact ih e (i + 1)

theorem refresh (hq : C (Program.request .isDisabled)) (ha : ∀ s n m, C (Exporter.ask s n m).run)
    (e : Exporter) : C e.refresh := by
  have hms : ∀ (ms : List MessageId) (e : Exporter), C (e.refreshMessages ms) := by
    intro ms
    induction ms with
    | nil => exact fun e => hC.done e
    | cons m ms ih =>
      intro e
      rw [Exporter.refreshMessages]
      split
      · exact ih e
      · exact hC.bind (hC.refreshFrom ha e m 0 e.sockets) ih
  refine hC.bind hq fun b => ?_
  cases b
  · exact hms _ e
  · exact hC.done e

end Program.Closed

end FirmwareMailbox
