/-
  FirmwareMailbox.Proofs.Session.Errand — what is left of an operation behind the gate.

  Every operation is of one shape (`Operation.perform_eq`): arguments that are wrong on any machine are
  refused, the gate is asked for one message, the inventory says what there is to do or why it cannot be
  done, and that is an errand: an answer from the inventory, a message to one socket, or a message to
  all of them. Only letting the widths of the links float passes the gate twice.

  What an errand sends is never newer than what the gate was asked for (`asks_covers`), also where the two
  are different messages. What the inventory refuses is a misuse, and the response that an errand asks for
  has every word that it reads (`errand_lawful`).
-/

import FirmwareMailbox.Proofs.Session.Assembled

namespace FirmwareMailbox

/-! ## What an operation asks -/

/-- The message that an operation sends, if it sends one. -/
def Operation.message? : Operation → Option MessageId
  | .socketPower _ => some .getSocketPower
  | .powerLimit _ => some .getSocketPowerLimit
  | .maxPowerLimit _ => some .getSocketPowerLimitMax
  | .procHot _ => some .getProcHot
  | .fabricClocks _ | .fabricClock _ | .memoryClock _ => some .getFclkMclk
  | .coreClockLimit _ => some .getCclkThrottleLimit
  | .activePercent _ => some .getC0Percent
  | .ddrBandwidth _ | .ddrMax _ | .ddrUsed _ | .ddrUsedPercent _ => some .getDdrBandwidth
  | .firmwareVersion | .interfaceVersion | .busAfter _ | .lowestBuses => none
  | .cpuBoost _ => some .getBoostLimit
  | .setPowerLimit .. => some .setSocketPowerLimit
  | .setCpuBoost .. => some .setBoostLimit
  | .setSocketBoost .. | .setSystemBoost _ => some .setBoostLimitSocket
  | .setFabricState _ p => some (if p.level.isSome then .setDfPstate else .autoDfPstate)
  | .setInterfaceState .. => some .setNbioDpmLevel
  | .setLinkWidth .. | .setLinkWidthAuto => some .setXgmiLinkWidth

/-- The operation sends a message that firmware of this version does not have. -/
def Operation.Exceeds (op : Operation) (v : UInt32) : Prop :=
  ∃ id, op.message? = some id ∧ v < id.minVersion

/-- The CPU is not in the table, has no APIC ID that fits a boost message, or is on a socket that is
    not there. -/
def CpuTable.Misses (cpus : CpuTable) (t : Topology) (cpu : Nat) : Prop :=
  ∀ e, cpus.find? cpu = some e → e.apicId > 0xFFFF ∨ t.socketCount ≤ e.socket

/-- The ways to look a CPU up for a boost message: it is not in the table, its APIC ID does not fit, or it is
    named and only its socket may not be there. -/
inductive CpuTable.Lookup (cpus : CpuTable) (t : Topology) (cpu : Nat) : Prop
  | absent : cpus.Misses t cpu → cpus.get cpu = .error (.invalidArgument (.absentCpu cpu)) → Lookup cpus t cpu
  | wide {e : CpuEntry} : cpus.Misses t cpu → cpus.get cpu = .ok e →
      Session.narrowApicId cpu e.apicId = .error (.invalidArgument (.wideApicId cpu e.apicId)) → Lookup cpus t cpu
  | named {e : CpuEntry} : cpus.find? cpu = some e → e.apicId ≤ 0xFFFF → cpus.get cpu = .ok e →
      Session.narrowApicId cpu e.apicId = .ok e.apicId.toUInt16 →
      (cpus.Misses t cpu ↔ t.socketCount ≤ e.socket) → Lookup cpus t cpu

theorem CpuTable.lookup (cpus : CpuTable) (t : Topology) (cpu : Nat) : cpus.Lookup t cpu := by
  cases hf : cpus.find? cpu with
  | none =>
    refine .absent (fun e he => ?_) (by simp only [get, hf])
    rw [hf] at he
    cases he
  | some e =>
    have hget : cpus.get cpu = .ok e := by simp only [get, hf]
    have hmisses : cpus.Misses t cpu ↔ e.apicId > 0xFFFF ∨ t.socketCount ≤ e.socket := by
      refine ⟨fun h => h e hf, fun h e' he => ?_⟩
      rw [hf] at he
      cases he
      exact h
    by_cases ha : e.apicId > 0xFFFF
    · exact .wide (hmisses.mpr (Or.inl ha)) hget (if_pos ha)
    · exact .named hf (UInt32.not_lt.mp ha) hget (if_neg ha) (hmisses.trans (or_iff_right ha))

/-- The arguments are none for this machine. -/
def Operation.Misused (p : Processor) (t : Topology) (cpus : CpuTable) : Operation → Prop
  | .socketPower n | .powerLimit n | .maxPowerLimit n | .procHot n | .fabricClocks n | .fabricClock n
  | .memoryClock n | .coreClockLimit n | .activePercent n | .ddrBandwidth n | .ddrMax n | .ddrUsed n
  | .ddrUsedPercent n | .setPowerLimit n _ | .setSocketBoost n _ | .setFabricState n _ =>
    t.socketCount ≤ n
  | .cpuBoost cpu | .setCpuBoost cpu _ => cpus.Misses t cpu
  | .busAfter i => t.tiles.length ≤ i
  | .setLinkWidth min max => max < min ∨ min < LinkWidth.floor p
  | .firmwareVersion | .interfaceVersion | .lowestBuses | .setSystemBoost _ | .setInterfaceState ..
  | .setLinkWidthAuto => False

/-! ## Errands -/

inductive Errand where
  /-- The inventory has the answer. -/
  | known (x : Except Error Answer)
  | send (socket : Nat) (m : Message) (read : List UInt32 → Except Error Answer)
  | sendAll (m : Message)

namespace Errand

/-- The message that is sent, if one is. -/
def message? : Errand → Option Message
  | known _ => none
  | send _ m _ => some m
  | sendAll m => some m

def perform (s : Session) (inv : Inventory) : Errand → Job Answer
  | known x => liftM x
  | send n m read => do
    let words ← s.deliver inv n m
    liftM (read words)
  | sendAll m => do
    s.deliverAll inv m
    return .nothing

/-- Sends a message without arguments for the one word that it answers. -/
def word (n : Nat) (id : MessageId) (f : UInt32 → Answer) : Errand :=
  .send n { id, responseLength := 1 } fun words => do
    let w ← Job.word words 0
    return f w

def clocks (n : Nat) (f : Session.FabricClocks → Answer) : Errand :=
  .send n { id := .getFclkMclk, responseLength := 2 } fun words => do
    let fabric ← Job.word words 0
    let memory ← Job.word words 1
    return f { fabric, memory }

/-- Sends a message that has no answer. -/
def set (n : Nat) (m : Message) : Errand := .send n m fun _ => return .nothing

/-- Sends a range of widths that the processor allows. -/
def widths (inv : Inventory) (min max : LinkWidth) : Except Error Errand :=
  let floor := LinkWidth.floor inv.processor
  if min < floor then .error (.invalidArgument (.belowFloor min floor))
  else .ok (.sendAll { id := .setXgmiLinkWidth, args :=
    [Layout.encode ({ min := min.widthClass, max := max.widthClass } : WidthRange)] })

end Errand

namespace Operation

/-- The message that the gate is asked for. -/
def asks : Operation → Option MessageId
  | .firmwareVersion => some .getSmuVersion
  | .interfaceVersion => some .getInterfaceVersion
  | .setFabricState .. => some .autoDfPstate
  | op => op.message?

/-- Why the arguments are none for any machine. -/
def disorder? : Operation → Option Misuse
  | .setLinkWidth min max => if max < min then some (.widths min max .widthOrder) else none
  | _ => none

/-- What there is to do behind the gate, or why it cannot be done. -/
def errand (inv : Inventory) : Operation → Except Error Errand
  | .socketPower n => .ok (.word n .getSocketPower .word)
  | .powerLimit n => .ok (.word n .getSocketPowerLimit .word)
  | .maxPowerLimit n => .ok (.word n .getSocketPowerLimitMax .word)
  | .procHot n => .ok (.word n .getProcHot fun w => .flag (w ≠ 0))
  | .fabricClocks n => .ok (.clocks n .clocks)
  | .fabricClock n => .ok (.clocks n fun c => .word c.fabric)
  | .memoryClock n => .ok (.clocks n fun c => .word c.memory)
  | .coreClockLimit n => .ok (.word n .getCclkThrottleLimit .word)
  | .activePercent n => .ok (.word n .getC0Percent .word)
  | .ddrBandwidth n => .ok (.word n .getDdrBandwidth fun w => .bandwidth (Layout.decode w))
  | .ddrMax n => .ok (.word n .getDdrBandwidth fun w => .word (Layout.decode w : DdrBandwidth).maxGbps)
  | .ddrUsed n => .ok (.word n .getDdrBandwidth fun w => .word (Layout.decode w : DdrBandwidth).usedGbps)
  | .ddrUsedPercent n =>
    .ok (.word n .getDdrBandwidth fun w => .word (Layout.decode w : DdrBandwidth).usedPercent)
  | .firmwareVersion => .ok (.known (.ok (.version inv.capabilities.firmware)))
  | .interfaceVersion => .ok (.known (.ok (.word inv.capabilities.interfaceVersion)))
  | .busAfter i => .ok (.known ((inv.topology.busAfter i).map fun (b, next) => .bus b next))
  | .lowestBuses => .ok (.known (.ok (.buses inv.topology.lowestBuses)))
  | .cpuBoost cpu => do
    let entry ← inv.cpus.get cpu
    let apicId ← Session.narrowApicId cpu entry.apicId
    return .send entry.socket { id := .getBoostLimit, args := [apicId.toUInt32], responseLength := 1 }
      fun words => do
        let w ← Job.word words 0
        return .word w
  | .setPowerLimit n limit => .ok (.set n { id := .setSocketPowerLimit, args := [limit] })
  | .setCpuBoost cpu mhz => do
    let entry ← inv.cpus.get cpu
    let apicId ← Session.narrowApicId cpu entry.apicId
    let arg : BoostLimit := { apicId, limitMhz := Session.saturate mhz }
    return .set entry.socket { id := .setBoostLimit, args := [Layout.encode arg] }
  | .setSocketBoost n mhz => .ok (.set n (Session.boostMessage mhz))
  | .setSystemBoost mhz => .ok (.sendAll (Session.boostMessage mhz))
  | .setFabricState n p => .ok (.set n (match p.level with
    | some level => { id := .setDfPstate, args := [level] }
    | none => { id := .autoDfPstate }))
  | .setInterfaceState bus p => do
    let tile ← inv.topology.busTile bus
    let arg : LevelRange := { tile := tile.id, max := p.levels.2, min := p.levels.1 }
    match Layout.fault? arg with
    | some f => throw (.invalidArgument (.levels f))
    | none => return .set tile.socket { id := .setNbioDpmLevel, args := [Layout.encode arg] }
  | .setLinkWidth min max => Errand.widths inv min max
  | .setLinkWidthAuto => Errand.widths inv (LinkWidth.floor inv.processor) .x16

/-- No width is above the widest. -/
theorem not_widest_lt (w : LinkWidth) : ¬ LinkWidth.x16 < w := by cases w <;> decide

/-- A range up to the widest is in order. -/
theorem disorder?_widest (w : LinkWidth) : (setLinkWidth w .x16).disorder? = none := if_neg (not_widest_lt w)

/-- An operation but for its arguments: the gate, and the errand behind it. -/
def behindGate (s : Session) (op : Operation) : Job Answer := do
  let inv ← s.gate op.asks
  let e ← op.errand inv
  e.perform s inv

end Operation

namespace Job

variable {α β : Type}

@[simp] theorem lift_ok (a : α) : (liftM (Except.ok a : Except Error α) : Job α) = pure a := rfl

@[simp] theorem lift_pure (a : α) : (liftM (pure a : Except Error α) : Job α) = pure a := rfl

@[simp] theorem lift_error (e : Error) : (liftM (Except.error e : Except Error α) : Job α) = throw e := rfl

@[simp] theorem lift_throw (e : Error) : (liftM (throw e : Except Error α) : Job α) = throw e := rfl

/-- A computation without requests is made as a whole. -/
@[simp] theorem lift_bind (x : Except Error α) (f : α → Except Error β) :
    (liftM (x >>= f) : Job β) = liftM x >>= fun a => liftM (f a) := by
  cases x <;> rfl

end Job

namespace Session

variable (s : Session) (n : Nat)

theorem readWord_eq (id : MessageId) (f : UInt32 → Answer) : (do
    let w ← s.readWord n id
    return f w) = s.gate (some id) >>= (Errand.word n id f).perform s := by
  simp only [readWord, exchange, bind_assoc, Errand.word, Errand.perform, Job.lift_bind]
  rfl

theorem fabricClocks_eq (f : FabricClocks → Answer) : (do
    let c ← s.fabricClocks n
    return f c) = s.gate (some .getFclkMclk) >>= (Errand.clocks n f).perform s := by
  simp only [fabricClocks, exchange, bind_assoc, pure_bind, Errand.clocks, Errand.perform, Job.lift_bind]
  rfl

end Session

namespace Operation

theorem setInterfaceState_eq (s : Session) (bus : UInt8) (p : InterfaceState) :
    (setInterfaceState bus p).perform s = (setInterfaceState bus p).behindGate s := by
  simp only [perform, behindGate, errand, Session.setInterfaceState, map_eq_pure_bind, bind_assoc, Job.lift_bind]
  refine congrArg (s.gate _ >>= ·) (funext fun inv =>
    congrArg (liftM (inv.topology.busTile bus) >>= ·) (funext fun tile => ?_))
  cases Layout.fault? ({ tile := tile.id, max := p.levels.2, min := p.levels.1 } : LevelRange) with
  | some f => rfl
  | none => simp only [bind_assoc, pure_bind, Errand.set, Errand.perform]; rfl

/-- The widths that a processor allows are sent, and no others. -/
theorem boundWidths_eq (s : Session) (min max : LinkWidth) (inv : Inventory) :
    (do
      s.boundWidths min max inv
      return .nothing) = (do
      let e ← Errand.widths inv min max
      e.perform s inv : Job Answer) := by
  unfold Session.boundWidths Errand.widths
  dsimp only
  split
  · rfl
  · rfl

theorem perform_eq (s : Session) (op : Operation) (ha : op ≠ .setLinkWidthAuto) : op.perform s =
    match op.disorder? with
    | some cause => throw (.invalidArgument cause)
    | none => op.behindGate s := by
  cases op
  case setInterfaceState bus p => exact setInterfaceState_eq s bus p
  case setLinkWidthAuto => exact absurd rfl ha
  all_goals simp only [perform, map_eq_pure_bind, disorder?]
  case setLinkWidth min max =>
    rw [Session.setLinkWidth_eq]
    split
    · rfl
    · simp only [bind_assoc, boundWidths_eq]
      rfl
  case fabricClocks n => exact s.fabricClocks_eq n _
  case fabricClock n | memoryClock n =>
    simp only [Session.fabricClock, Session.memoryClock, bind_assoc, pure_bind]
    exact s.fabricClocks_eq n _
  case procHot n | ddrBandwidth n | ddrMax n | ddrUsed n | ddrUsedPercent n =>
    simp only [Session.procHot, Session.ddrBandwidth, Session.ddrMax, Session.ddrUsed, Session.ddrUsedPercent,
      bind_assoc, pure_bind]
    exact s.readWord_eq n _ _
  case socketPower n | powerLimit n | maxPowerLimit n | coreClockLimit n | activePercent n =>
    exact s.readWord_eq n _ _
  case cpuBoost cpu =>
    simp only [behindGate, errand, Session.cpuBoost, Errand.perform, bind_assoc, Job.lift_bind, Job.lift_pure,
      pure_bind]
    rfl
  case setCpuBoost cpu mhz =>
    simp only [behindGate, errand, Session.setCpuBoost, Errand.set, Errand.perform, bind_assoc, Job.lift_bind,
      Job.lift_pure, pure_bind]
    rfl
  case setPowerLimit n limit =>
    simp only [Session.setPowerLimit, Session.exchange, bind_assoc]
    rfl
  case setSocketBoost n mhz =>
    simp only [Session.setSocketBoost, Session.exchange, bind_assoc]
    rfl
  case setSystemBoost mhz =>
    simp only [Session.setSystemBoost, bind_assoc]
    rfl
  case setFabricState n p =>
    simp only [Session.setFabricState, bind_assoc]
    rfl
  case firmwareVersion | interfaceVersion | lowestBuses =>
    simp only [Session.firmwareVersion, Session.interfaceVersion, Session.lowestBuses, bind_assoc, pure_bind]
    rfl
  case busAfter i =>
    simp only [Session.busAfter, bind_assoc]
    refine congrArg (s.gate none >>= ·) (funext fun inv => ?_)
    simp only [errand, Errand.perform, Except.map]
    cases inv.topology.busAfter i <;> rfl

/-- Letting the widths float is a range of widths behind a gate of its own. -/
theorem perform_linkWidthAuto (s : Session) : setLinkWidthAuto.perform s = (do
    let inv ← s.gate (some .setXgmiLinkWidth)
    (setLinkWidth (LinkWidth.floor inv.processor) .x16).perform s) := by
  simp only [perform, Session.setLinkWidthAuto, map_eq_pure_bind, bind_assoc]

/-! ## What an errand sends -/

variable {op : Operation} {inv : Inventory} {e : Errand}

/-- An errand that needs an entry of the CPU table and a narrow APIC ID has them. -/
theorem ok_of_cpu {cpu : Nat} {f : CpuEntry → UInt16 → Errand} (h : (do
    let entry ← inv.cpus.get cpu
    let apicId ← Session.narrowApicId cpu entry.apicId
    return f entry apicId) = Except.ok e) : ∃ entry apicId, inv.cpus.get cpu = .ok entry ∧
      Session.narrowApicId cpu entry.apicId = .ok apicId ∧ e = f entry apicId := by
  cases hget : inv.cpus.get cpu with
  | error c => rw [hget] at h; cases h
  | ok entry =>
    rw [hget] at h
    change (Session.narrowApicId cpu entry.apicId >>= fun apicId => pure (f entry apicId)) = _ at h
    cases hid : Session.narrowApicId cpu entry.apicId with
    | error c => rw [hid] at h; cases h
    | ok apicId =>
      rw [hid] at h
      cases h
      exact ⟨entry, apicId, rfl, hid, rfl⟩

/-- An errand for the interface of a bus has the tile of the bus and levels that fit. -/
theorem ok_of_bus {bus : UInt8} {p : InterfaceState} (h : (setInterfaceState bus p).errand inv = .ok e) :
    ∃ tile, inv.topology.busTile bus = .ok tile ∧ e = .set tile.socket { id := .setNbioDpmLevel, args :=
      [Layout.encode ({ tile := tile.id, max := p.levels.2, min := p.levels.1 } : LevelRange)] } := by
  simp only [errand] at h
  cases htile : inv.topology.busTile bus with
  | error c => rw [htile] at h; cases h
  | ok tile =>
    rw [htile] at h
    simp only [bind, Except.bind] at h
    split at h
    · cases h
    · cases h
      exact ⟨tile, rfl, rfl⟩

/-- An errand for a range of widths sends them. -/
theorem ok_of_widths {min max : LinkWidth} (h : Errand.widths inv min max = .ok e) :
    e = .sendAll { id := .setXgmiLinkWidth, args :=
      [Layout.encode ({ min := min.widthClass, max := max.widthClass } : WidthRange)] } := by
  unfold Errand.widths at h
  dsimp only at h
  split at h <;> cases h
  rfl

/-- The levels of a state are in order, and each of the four tiles may be given them. -/
theorem levels_fit {id : UInt8} (hid : id ∈ ([0, 1, 2, 3] : List UInt8)) (p : InterfaceState) :
    Layout.fault? ({ tile := id, max := p.levels.2, min := p.levels.1 } : LevelRange) = none := by
  simp only [List.mem_cons, List.not_mem_nil, or_false] at hid
  rcases hid with rfl | rfl | rfl | rfl <;> cases p <;> rfl

/-- An errand sends the message of its operation, in a form that fits. -/
theorem errand_message (h : op.errand inv = .ok e) :
    e.message?.map (·.id) = op.message? ∧ ∀ m, e.message? = some m → m.Fits := by
  have hsend : ∀ (n : Nat) (m : Message) read, m.Fits →
      (Errand.send n m read).message?.map (·.id) = some m.id ∧
        ∀ m', (Errand.send n m read).message? = some m' → m'.Fits := by
    intro n m read hm
    exact ⟨rfl, fun m' h => Option.some.inj h ▸ hm⟩
  have hall : ∀ m : Message, m.Fits → (Errand.sendAll m).message?.map (·.id) = some m.id ∧
      ∀ m', (Errand.sendAll m).message? = some m' → m'.Fits := by
    intro m hm
    exact ⟨rfl, fun m' h => Option.some.inj h ▸ hm⟩
  have hwidths : ∀ min max, Errand.widths inv min max = .ok e →
      e.message?.map (·.id) = some .setXgmiLinkWidth ∧ ∀ m, e.message? = some m → m.Fits := by
    intro min max h
    obtain rfl := ok_of_widths h
    exact hall _ ⟨rfl, rfl⟩
  cases op
  case firmwareVersion | interfaceVersion | busAfter i | lowestBuses =>
    cases h
    exact ⟨rfl, fun m hm => by cases hm⟩
  case cpuBoost cpu =>
    obtain ⟨entry, apicId, -, -, rfl⟩ := ok_of_cpu h
    exact hsend _ _ _ ⟨rfl, rfl⟩
  case setCpuBoost cpu mhz =>
    obtain ⟨entry, apicId, -, -, rfl⟩ := ok_of_cpu h
    exact hsend _ _ _ ⟨rfl, rfl⟩
  case setInterfaceState bus p =>
    obtain ⟨tile, -, rfl⟩ := ok_of_bus h
    exact hsend _ _ _ ⟨rfl, rfl⟩
  case setLinkWidth min max => exact hwidths _ _ h
  case setLinkWidthAuto => exact hwidths _ _ h
  case setSystemBoost mhz =>
    cases h
    exact hall _ ⟨rfl, rfl⟩
  case setFabricState n p =>
    cases h
    cases p <;> exact hsend _ _ _ ⟨rfl, rfl⟩
  all_goals
    cases h
    exact hsend _ _ _ ⟨rfl, rfl⟩

/-- The gate was asked for no older a message than is sent. -/
theorem asks_covers (op : Operation) {id : MessageId} (h : op.message? = some id) :
    ∃ asked, op.asks = some asked ∧ id.minVersion ≤ asked.minVersion := by
  cases op
  case setFabricState n p =>
    cases h
    refine ⟨_, rfl, ?_⟩
    split <;> decide
  case firmwareVersion | interfaceVersion => cases h
  all_goals exact ⟨id, h, UInt32.le_refl _⟩

end Operation

/-! ## What an errand fails with -/

/-- The caller named something that is not there, or a value that does not fit. -/
def Error.IsMisuse (e : Error) : Prop := ∃ cause, e = .invalidArgument cause

/-- The response has fewer words than the message asked for, and is read beyond its end. -/
def Message.CutShort (m : Message) (words : List UInt32) (e : Error) : Prop :=
  words.length < m.responseLength ∧ ∃ i, e = .outOfBounds i

/-- A word that was asked for is missing only from a response that was cut short. -/
theorem Message.word_fails {m : Message} {i : Nat} (hi : i < m.responseLength) (words : List UInt32) :
    FailsWith (m.CutShort words) (Job.word words i) := by
  intro e h
  obtain ⟨hl, he⟩ := Job.word_eq_error h
  exact ⟨by omega, i, he⟩

/-- An answer that the inventory does not have is a misuse, and what reads a response asked for every word
    that it reads. -/
def Errand.Lawful : Errand → Prop
  | .known x => FailsWith Error.IsMisuse x
  | .send _ m read => ∀ words, FailsWith (m.CutShort words) (read words)
  | .sendAll _ => True

namespace Errand

theorem first_lawful (n : Nat) (m : Message) (hm : 0 < m.responseLength) (f : UInt32 → Answer) :
    (Errand.send n m fun words => do
      let w ← Job.word words 0
      return f w).Lawful :=
  fun words => .bind (Message.word_fails hm words) fun w => .ok (f w)

theorem clocks_lawful (n : Nat) (f : Session.FabricClocks → Answer) : (Errand.clocks n f).Lawful :=
  fun words => .bind (Message.word_fails (Nat.zero_lt_two) words) fun _ =>
    .bind (Message.word_fails (Nat.one_lt_two) words) fun _ => .ok _

end Errand

namespace Operation

variable {inv : Inventory}

/-- The errand of a CPU that cannot be named to its socket is a misuse. -/
theorem misuse_of_cpu (cpu : Nat) (f : CpuEntry → UInt16 → Errand) : FailsWith Error.IsMisuse (do
    let entry ← inv.cpus.get cpu
    let apicId ← Session.narrowApicId cpu entry.apicId
    return f entry apicId) := by
  refine .bind (fun e h => ?_) fun entry => .bind (fun e h => ?_) fun _ => .ok _
  · unfold CpuTable.get at h
    split at h <;> cases h
    exact ⟨_, rfl⟩
  · unfold Session.narrowApicId at h
    split at h <;> cases h
    exact ⟨_, rfl⟩

theorem misuse_of_bus (bus : UInt8) (p : InterfaceState) :
    FailsWith Error.IsMisuse ((setInterfaceState bus p).errand inv) := by
  refine .bind (fun e h => ?_) fun tile => ?_
  · unfold Topology.busTile at h
    split at h <;> cases h
    exact ⟨_, rfl⟩
  · dsimp only
    split
    · exact .error ⟨_, rfl⟩
    · exact .ok _

/-- Behind the gate, an operation is refused for its arguments alone, whatever the inventory. -/
theorem errand_lawful (op : Operation) (inv : Inventory) :
    FailsWith Error.IsMisuse (op.errand inv) ∧ ∀ x, op.errand inv = .ok x → x.Lawful := by
  have hok : ∀ {x : Errand}, x.Lawful → FailsWith Error.IsMisuse (.ok x : Except Error Errand) ∧
      ∀ y, (.ok x : Except Error Errand) = .ok y → y.Lawful := by
    intro x hx
    refine ⟨.ok x, fun y h => ?_⟩
    cases h
    exact hx
  have hset : ∀ n m, (Errand.set n m).Lawful := fun n m words => .ok _
  have hwidths : ∀ min max, FailsWith Error.IsMisuse (Errand.widths inv min max) ∧
      ∀ x, Errand.widths inv min max = .ok x → x.Lawful := by
    intro min max
    unfold Errand.widths
    dsimp only
    split
    · exact ⟨.error ⟨_, rfl⟩, fun x hx => by cases hx⟩
    · exact hok trivial
  cases op
  case firmwareVersion | interfaceVersion | lowestBuses => exact hok (.ok _)
  case busAfter i =>
    refine hok fun e h => ?_
    unfold Topology.busAfter at h
    split at h <;> cases h
    exact ⟨_, rfl⟩
  case cpuBoost cpu =>
    refine ⟨misuse_of_cpu cpu _, fun x h => ?_⟩
    obtain ⟨entry, apicId, -, -, rfl⟩ := ok_of_cpu h
    exact Errand.first_lawful _ _ Nat.zero_lt_one _
  case setCpuBoost cpu mhz =>
    refine ⟨misuse_of_cpu cpu _, fun x h => ?_⟩
    obtain ⟨entry, apicId, -, -, rfl⟩ := ok_of_cpu h
    exact hset _ _
  case setInterfaceState bus state =>
    refine ⟨misuse_of_bus bus state, fun x h => ?_⟩
    obtain ⟨tile, -, rfl⟩ := ok_of_bus h
    exact hset _ _
  case setLinkWidth min max => exact hwidths _ _
  case setLinkWidthAuto => exact hwidths _ _
  case setSystemBoost mhz => exact hok trivial
  case setPowerLimit n limit => exact hok (hset _ _)
  case setSocketBoost n mhz => exact hok (hset _ _)
  case setFabricState n state => exact hok (hset _ _)
  case fabricClocks n => exact hok (Errand.clocks_lawful n _)
  case fabricClock n => exact hok (Errand.clocks_lawful n _)
  case memoryClock n => exact hok (Errand.clocks_lawful n _)
  all_goals exact hok (Errand.first_lawful _ _ Nat.zero_lt_one _)

end Operation

end FirmwareMailbox
