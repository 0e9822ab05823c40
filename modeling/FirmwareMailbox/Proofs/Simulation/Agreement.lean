/-
  FirmwareMailbox.Proofs.Simulation.Agreement — the driver and the firmware agree on what is asked.

  An operation is a passage of the gate with deliveries behind it. The gate opens on the same inventory
  every time (`Site.Door`), and behind it the firmware takes whatever the driver lets through, since
  the driver packs words as the firmware unpacks them. So every operation ends as told in advance, and
  leaves the door open for the next (`Site.Opens`).
-/

import FirmwareMailbox.Proofs.Session.Moves
import FirmwareMailbox.Proofs.Simulation.Verdict

namespace FirmwareMailbox

namespace Simulation.Site

variable {α β : Type} {S : Site} {s : Session} {inv : Inventory} {mem : Memory}

/-! ## What the driver packs -/

/-- The number that a boost limit names is what the firmware takes out of it. -/
theorem encode_boostLimit_apicId (b : BoostLimit) :
    (Layout.encode b : UInt32) >>> 16 = b.apicId.toUInt32 := by
  refine UInt32.toNat_inj.mp ?_
  show (b.apicId.toUInt32 <<< 16 ||| b.limitMhz.toUInt32 : UInt32).toNat >>> 16 = _
  have ha := b.apicId.toNat_lt
  have hl := b.limitMhz.toNat_lt
  have hhigh : (b.apicId.toNat <<< 16 % 2 ^ 32) >>> 16 = b.apicId.toNat := by
    rw [Nat.shiftLeft_eq, Nat.mod_eq_of_lt (by omega), Nat.shiftRight_eq_div_pow]
    exact Nat.mul_div_cancel _ (by decide)
  have hlow : b.limitMhz.toNat >>> 16 = 0 := by
    rw [Nat.shiftRight_eq_div_pow]
    exact Nat.div_eq_of_lt hl
  simp only [UInt32.toNat_or, UInt32.toNat_shiftLeft, UInt16.toNat_toUInt32, Nat.shiftRight_or_distrib,
    hlow, Nat.or_zero]
  exact hhigh

/-- The firmware takes the states of an interface for each of the four tiles. -/
theorem levels_taken {id : UInt8} (hid : id ∈ ([0, 1, 2, 3] : List UInt8)) (p : InterfaceState)
    (f : Firmware) : ∃ ws f', f.perform
      (Layout.encode ({ tile := id, max := p.levels.2, min := p.levels.1 } : LevelRange)) .setNbioDpmLevel =
        .ok (ws, f') := by
  simp only [List.mem_cons, List.not_mem_nil, or_false] at hid
  rcases hid with rfl | rfl | rfl | rfl <;> cases p <;> exact ⟨_, _, rfl⟩

/-- The firmware keeps the word of a range of widths that is in order. -/
theorem perform_widths {min max : LinkWidth} (h : ¬ max < min) (f : Firmware) : f.perform
    (Layout.encode ({ min := min.widthClass, max := max.widthClass } : WidthRange)) .setXgmiLinkWidth =
    .ok ([], { f with linkWidths := some ((min.widthClass.toUInt32 <<< 8) ||| max.widthClass.toUInt32) }) := by
  cases min <;> cases max <;> first | rfl | exact absurd (by decide) h

theorem widths_taken {min max : LinkWidth} (h : ¬ max < min) (f : Firmware) : ∃ ws f', f.perform
    (Layout.encode ({ min := min.widthClass, max := max.widthClass } : WidthRange)) .setXgmiLinkWidth =
      .ok (ws, f') :=
  ⟨_, _, perform_widths h f⟩

/-- The firmware behind a CPU's socket has a boost limit for the CPU. -/
theorem Serving.limit {m : State} {x : Tile} {sk : Socket} {cpu : Nat} {e : CpuEntry} (hm : S.Serving m)
    (hf : S.cpus.find? cpu = some e) (hx : S.topology.mailboxTile e.socket = .ok x)
    (hb : m.behind x.handle = some sk) : ∃ limit, sk.firmware.boostLimits.at? e.apicId = some limit := by
  obtain ⟨p, hp, rfl⟩ := Option.map_eq_some_iff.mp hf
  obtain ⟨sk', hb', hk⟩ := hm.boost p (List.mem_of_find?_eq_some hp) x hx
  rw [hb] at hb'
  cases hb'
  exact Option.isSome_iff_exists.mp hk

/-! ## At the door -/

/-- From the door, the job ends as `Q` says and is at the door again. -/
def Opens (S : Site) (s : Session) (inv : Inventory) (j : Job α) (Q : Except Error α → Prop) : Prop :=
  ∀ w, S.Door s inv w → ∃ r w', World.run machine j w = (r, w') ∧ Q r ∧ S.Door s inv w'

/-- The gate lets a message pass that the version has. -/
theorem Describes.letPass (hd : S.Describes s inv) (id : MessageId) : Session.letPass (some id) inv =
    if id.minVersion ≤ S.version then .ok inv
    else .error (.versionMismatch id id.minVersion S.version) := by
  simp only [Session.letPass, Capabilities.require_eq, hd.version]
  split <;> rfl

/-- Once the machine is known, the gate hands out what is known of it. -/
theorem Serves.gate (hd : S.Describes s inv) (hk : Knows inv mem) (id : MessageId)
    (hid : id.minVersion ≤ S.version) {f : Inventory → Job α} {Q : Except Error α → Prop}
    (hf : S.Serves mem (f inv) Q) : S.Serves mem (s.gate (some id) >>= f) Q := by
  intro m hm
  obtain ⟨r, m', hr, hq, hm'⟩ := hf m hm
  have hgate := run_gate_known (s := s) hm hk (some id)
  rw [hd.letPass, if_pos hid] at hgate
  exact ⟨r, m', (World.run_bind_ok hgate).trans hr, hq, hm'⟩

namespace Opens

variable {v : UInt32} {m? : Option MessageId} {P : Prop} {W : α → Prop} {V : β → Prop}

theorem lift {Q : Except Error α → Prop} {x : Except Error α} (hx : Q x) : S.Opens s inv (liftM x) Q :=
  fun w hw => ⟨x, w, rfl, hx, hw⟩

theorem mono {Q Q' : Except Error α → Prop} {j : Job α} (h : S.Opens s inv j Q)
    (hQ : ∀ r, Q r → Q' r) : S.Opens s inv j Q' := by
  intro w hw
  obtain ⟨r, w', hr, hq, hw'⟩ := h w hw
  exact ⟨r, w', hr, hQ r hq, hw'⟩

/-- The gate comes first: it refuses what the version does not have, and what it does not refuse is
    up to what follows. -/
theorem gate (hd : S.Describes s inv) {f : Inventory → Job α}
    (hf : ∀ mem, Knows inv mem → (∀ id, m? = some id → id.minVersion ≤ S.version) →
      S.Serves mem (f inv) (Ends P W)) :
    S.Opens s inv (s.gate m? >>= f) (Verdict S.version m? P W) := by
  intro w hw
  obtain ⟨m, mem, hgate, hk, hserv⟩ := hw m?
  by_cases hv : ∀ id, m? = some id → id.minVersion ≤ S.version
  · have hpass : Session.letPass m? inv = .ok inv := by
      cases m? with
      | none => rfl
      | some id => rw [hd.letPass, if_pos (hv id rfl)]
    rw [hpass] at hgate
    obtain ⟨r, m', hr, hq, hm'⟩ := hf mem hk hv m hserv
    refine ⟨r, ⟨m', mem⟩, (World.run_bind_ok hgate).trans hr, ⟨fun id hid hlt => ?_, fun _ => hq⟩,
      door_known hm' hk⟩
    exact absurd (hv id hid) (UInt32.not_le.mpr hlt)
  · obtain ⟨id, rfl, hid⟩ : ∃ id, m? = some id ∧ ¬ id.minVersion ≤ S.version := by
      simpa using hv
    rw [hd.letPass, if_neg hid] at hgate
    refine ⟨_, _, World.run_bind_error hgate, ⟨fun id' hid' _ => ?_, fun h => absurd (h id rfl) hid⟩,
      door_known hserv hk⟩
    cases hid'
    rfl

/-- What is made of an answer afterwards. -/
theorem andThen {j : Job α} {k : α → Job β} (hj : S.Opens s inv j (Verdict v m? P W))
    (hk : ∀ a, W a → ∃ b, k a = pure b ∧ V b) : S.Opens s inv (j >>= k) (Verdict v m? P V) := by
  intro w hw
  obtain ⟨r, w', hr, hq, hw'⟩ := hj w hw
  cases r with
  | error e => exact ⟨.error e, w', World.run_bind_error hr, hq.error, hw'⟩
  | ok a =>
    obtain ⟨hv, hP, ha⟩ := hq.of_ok
    obtain ⟨b, hb, hW⟩ := hk a ha
    refine ⟨.ok b, w', (World.run_bind_ok hr).trans ?_, .ok hv hP hW, hw'⟩
    rw [hb]
    rfl

theorem map {j : Job α} (g : α → β) (hj : S.Opens s inv j (Verdict v m? P W)) :
    S.Opens s inv (g <$> j) (Verdict v m? P fun _ => True) := by
  rw [map_eq_pure_bind]
  exact hj.andThen fun a _ => ⟨g a, rfl, trivial⟩

end Opens

section

variable (hd : S.Describes s inv)

include hd

/-! ## Reading -/

/-- A message that any firmware takes is exchanged with a socket that is there. -/
theorem opens_exchange (n : Nat) (msg : Message) (hm : msg.Fits)
    (hq : ∀ f : Firmware, ∃ ws f', f.perform (msg.args.headD 0) msg.id = .ok (ws, f')) :
    S.Opens s inv (s.exchange n msg)
      (Verdict S.version (some msg.id) (S.topology.socketCount ≤ n) (·.length = msg.responseLength)) :=
  .gate hd fun _ hk hv => .deliver hd hk n hm (hv _ rfl) fun _ _ sk _ _ _ => hq sk.firmware

theorem opens_readWord (n : Nat) (id : MessageId) (hm : Message.Fits { id, responseLength := 1 })
    (hq : ∀ f : Firmware, ∃ ws f', f.perform 0 id = .ok (ws, f')) :
    S.Opens s inv (s.readWord n id)
      (Verdict S.version (some id) (S.topology.socketCount ≤ n) fun _ => True) := by
  refine (opens_exchange hd n _ hm hq).andThen fun ws hl => ?_
  obtain ⟨w, rfl⟩ := List.length_eq_one_iff.mp hl
  exact ⟨w, rfl, trivial⟩

theorem opens_fabricClocks (n : Nat) : S.Opens s inv (s.fabricClocks n)
    (Verdict S.version (some .getFclkMclk) (S.topology.socketCount ≤ n) fun _ => True) := by
  refine (opens_exchange hd n _ ⟨rfl, rfl⟩ fun f => ⟨_, f, rfl⟩).andThen fun ws hl => ?_
  obtain ⟨a, b, rfl⟩ := List.length_eq_two.mp hl
  exact ⟨⟨a, b⟩, rfl, trivial⟩

theorem opens_ddrBandwidth (n : Nat) : S.Opens s inv (s.ddrBandwidth n)
    (Verdict S.version (some .getDdrBandwidth) (S.topology.socketCount ≤ n) fun _ => True) :=
  (opens_readWord hd n _ ⟨rfl, rfl⟩ fun f => ⟨_, f, rfl⟩).andThen fun _ _ => ⟨_, rfl, trivial⟩

/-! ## Changing settings -/

theorem opens_cpuBoost (cpu : Nat) : S.Opens s inv (s.cpuBoost cpu)
    (Verdict S.version (some .getBoostLimit) (S.cpus.Misses S.topology cpu) fun _ => True) := by
  refine .gate hd fun mem hk hv => .forCpu hd fun e a hf ha => ?_
  refine (Serves.deliver hd hk _ ⟨rfl, rfl⟩ (hv _ rfl) fun x m sk hx hm hb => ?_).andThen fun ws hn hl => ?_
  · obtain ⟨limit, hlimit⟩ := hm.limit hf hx hb
    exact ⟨[limit], sk.firmware, by simp only [List.headD_cons, Firmware.perform, ha, hlimit]⟩
  · obtain ⟨w, rfl⟩ := List.length_eq_one_iff.mp hl
    exact .lift (x := .ok w) (.ok hn trivial)

theorem opens_setCpuBoost (cpu : Nat) (mhz : UInt32) : S.Opens s inv (s.setCpuBoost cpu mhz)
    (Verdict S.version (some .setBoostLimit) (S.cpus.Misses S.topology cpu) fun _ => True) := by
  refine .gate hd fun mem hk hv => .forCpu hd fun e a hf ha => ?_
  refine (Serves.deliver hd hk _ ⟨rfl, rfl⟩ (hv _ rfl) fun x m sk hx hm hb => ?_).andThen fun _ hn _ =>
    .lift (.ok hn trivial)
  obtain ⟨limit, hlimit⟩ := hm.limit hf hx hb
  simp only [List.headD_cons, Firmware.perform, encode_boostLimit_apicId, ha, hlimit]
  exact ⟨_, _, rfl⟩

theorem opens_setSystemBoost (mhz : UInt32) : S.Opens s inv (s.setSystemBoost mhz)
    (Verdict S.version (some .setBoostLimitSocket) False fun _ => True) :=
  .gate hd fun _ hk hv => .deliverAll hd hk ⟨rfl, rfl⟩ (hv _ rfl) fun _ => ⟨_, _, rfl⟩

/-- Both messages of the data fabric are in every version, so it does not count which one is sent. -/
theorem opens_setFabricState (n : Nat) (p : FabricState) : S.Opens s inv (s.setFabricState n p)
    (Verdict S.version (Operation.setFabricState n p).message? (S.topology.socketCount ≤ n)
      fun _ => True) := by
  have hold : ∀ id : MessageId, id.minVersion = 1 → id.minVersion ≤ S.version :=
    fun id h => h ▸ S.one_le_version
  have h : S.Opens s inv (s.setFabricState n p)
      (Verdict S.version (some .autoDfPstate) (S.topology.socketCount ≤ n) fun _ => True) := by
    refine .gate hd fun mem hk _ => ?_
    refine (Serves.deliver hd hk n ?_ (hold _ ?_) fun _ _ sk _ _ _ => ?_).andThen fun _ hn _ =>
      .lift (.ok hn trivial)
    · cases p <;> exact ⟨rfl, rfl⟩
    · cases p <;> rfl
    · cases p <;> exact ⟨_, _, rfl⟩
  refine h.mono fun r hr => hr.switch (fun id hid => ?_) fun id hid => ?_
  · cases hid
    exact hold _ rfl
  · cases p <;> cases hid <;> exact hold _ rfl

/-- The tile that has a bus is in a socket that is there, and its number is one that the firmware
    takes. -/
theorem opens_setInterfaceState (bus : UInt8) (p : InterfaceState) :
    S.Opens s inv (s.setInterfaceState bus p)
      (Verdict S.version (some .setNbioDpmLevel) False fun _ => True) := by
  refine .gate hd fun mem hk hv => ?_
  obtain ⟨x, hx⟩ := S.arranged.spans.filter_covers (Nat.zero_le bus.toNat)
  have hx' : inv.topology.busTile bus = .ok x := by
    rw [hd.topology]
    exact Topology.busTile_of_filter hx
  obtain ⟨hsock, hid⟩ := Topology.tile_of_bus S.arranged S.numbers hx
  refine .lift_ok hx' ?_
  dsimp only
  rw [Operation.levels_fit hid p]
  have hfits : Message.Fits { id := .setNbioDpmLevel, args :=
      [Layout.encode ({ tile := x.id, max := p.levels.2, min := p.levels.1 } : LevelRange)] } := ⟨rfl, rfl⟩
  have hserve := Serves.deliver hd hk x.socket hfits (hv _ rfl) fun _ _ sk _ _ _ => levels_taken hid p sk.firmware
  exact (hserve.mono fun _ h => h.congr (iff_of_false (by omega) id : _ ↔ False)).andThen fun _ hn _ =>
    .lift (.ok hn trivial)

/-! ## Link widths -/

/-- Behind the gate a range of widths in order is refused only for the processor's sake. -/
theorem serves_boundWidths (hk : Knows inv mem) {min max : LinkWidth} (hle : ¬ max < min) :
    S.Serves mem (s.boundWidths min max inv) (Ends (min < LinkWidth.floor inv.processor) fun _ => True) := by
  unfold Session.boundWidths
  dsimp only
  split
  · exact .lift (.error ‹_›)
  · have hfits : Message.Fits { id := .setXgmiLinkWidth, args :=
        [Layout.encode ({ min := min.widthClass, max := max.widthClass } : WidthRange)] } := ⟨rfl, rfl⟩
    exact (Serves.deliverAll hd hk hfits S.one_le_version (widths_taken hle)).mono fun _ h =>
      h.congr (iff_of_false id ‹_›)

theorem opens_setLinkWidth (min max : LinkWidth) : S.Opens s inv (s.setLinkWidth min max)
    (Verdict S.version (some .setXgmiLinkWidth) (max < min ∨ min < LinkWidth.floor inv.processor)
      fun _ => True) := by
  rw [Session.setLinkWidth_eq]
  split
  · refine .lift ⟨fun id hid hlt => ?_, fun _ => .error (Or.inl ‹_›)⟩
    cases hid
    exact absurd S.one_le_version (UInt32.not_le.mpr hlt)
  · refine .gate hd fun mem hk _ => (serves_boundWidths hd hk ‹_›).mono fun _ h => h.congr ?_
    exact ⟨Or.inr, fun h => h.resolve_left ‹_›⟩

theorem opens_setLinkWidthAuto : S.Opens s inv s.setLinkWidthAuto
    (Verdict S.version (some .setXgmiLinkWidth) False fun _ => True) := by
  refine .gate hd fun mem hk _ => ?_
  have hle := Operation.not_widest_lt (LinkWidth.floor inv.processor)
  rw [Session.setLinkWidth_eq, if_neg hle]
  have hserve := (serves_boundWidths hd hk hle).mono fun _ h =>
    h.congr (iff_of_false (UInt8.lt_irrefl _) id : _ ↔ False)
  exact .gate hd hk .setXgmiLinkWidth S.one_le_version hserve

/-! ## Every operation -/

/-- What is answered from the inventory needs a message of every version, and sends none. -/
theorem opens_recall {id : MessageId} (hid : id.minVersion = 1) (g : Inventory → α) :
    S.Opens s inv (s.gate (some id) >>= fun inv => pure (g inv))
      (Verdict S.version none False fun _ => True) := by
  have h : S.Opens s inv (s.gate (some id) >>= fun inv => pure (g inv))
      (Verdict S.version (some id) False fun _ => True) :=
    .gate hd fun _ _ _ => .lift (x := .ok (g inv)) (.ok (fun h => h) trivial)
  refine h.mono fun r hr => hr.switch (fun id' h' => ?_) fun id' h' => (by cases h')
  cases h'
  exact hid ▸ S.one_le_version

/-- Every operation ends as its verdict says. -/
theorem opens_perform (op : Operation) : S.Opens s inv (op.perform s)
    (Verdict S.version op.message? (op.Misused inv.processor S.topology S.cpus) fun _ => True) := by
  cases op
  case procHot n =>
    have h := opens_readWord (s := s) hd n .getProcHot ⟨rfl, rfl⟩ fun f => ⟨_, f, rfl⟩
    exact .map _ (h.andThen (V := fun _ => True) fun _ _ => ⟨_, rfl, trivial⟩)
  case fabricClocks n => exact .map _ (opens_fabricClocks hd n)
  case fabricClock n | memoryClock n =>
    exact .map _ ((opens_fabricClocks hd n).andThen (V := fun _ => True) fun _ _ => ⟨_, rfl, trivial⟩)
  case ddrBandwidth n => exact .map _ (opens_ddrBandwidth hd n)
  case ddrMax n | ddrUsed n | ddrUsedPercent n =>
    exact .map _ ((opens_ddrBandwidth hd n).andThen (V := fun _ => True) fun _ _ => ⟨_, rfl, trivial⟩)
  case firmwareVersion | interfaceVersion => exact .map _ (opens_recall hd rfl _)
  case busAfter i =>
    refine .map _ (.gate (W := fun _ => True) hd fun _ _ _ => ?_)
    rw [hd.topology]
    unfold Topology.busAfter
    split
    · exact .lift (.error (List.getElem?_eq_none_iff.mp ‹_›))
    · have hi := (List.getElem?_eq_some_iff.mp ‹_›).1
      exact .lift (.ok (Nat.not_le_of_lt hi) trivial)
  case lowestBuses =>
    exact .map _ (.gate (W := fun _ => True) hd fun _ _ _ => .lift (.ok (fun h => h) trivial))
  case cpuBoost cpu => exact .map _ (opens_cpuBoost hd cpu)
  case setPowerLimit n limit =>
    have h := opens_exchange (s := s) hd n { id := .setSocketPowerLimit, args := [limit] } ⟨rfl, rfl⟩
      fun f => ⟨_, _, rfl⟩
    exact .map _ (h.andThen (V := fun _ => True) fun _ _ => ⟨_, rfl, trivial⟩)
  case setCpuBoost cpu mhz => exact .map _ (opens_setCpuBoost hd cpu mhz)
  case setSocketBoost n mhz =>
    have h := opens_exchange (s := s) hd n (Session.boostMessage mhz) ⟨rfl, rfl⟩ fun f => ⟨_, _, rfl⟩
    exact .map _ (h.andThen (V := fun _ => True) fun _ _ => ⟨_, rfl, trivial⟩)
  case setSystemBoost mhz => exact .map _ (opens_setSystemBoost hd mhz)
  case setFabricState n p => exact .map _ (opens_setFabricState hd n p)
  case setInterfaceState bus p => exact .map _ (opens_setInterfaceState hd bus p)
  case setLinkWidth min max => exact .map _ (opens_setLinkWidth hd min max)
  case setLinkWidthAuto => exact .map _ (opens_setLinkWidthAuto hd)
  all_goals exact .map _ (opens_readWord hd _ _ ⟨rfl, rfl⟩ fun f => ⟨_, f, rfl⟩)

/-- So do operations one after the other. -/
theorem opens_performAll (ops : List Operation) (w : World State) (hw : S.Door s inv w) :
    List.Forall₂ (fun op r => Verdict S.version op.message? (op.Misused inv.processor S.topology S.cpus)
      (fun _ => True) r) ops (World.performAll machine s ops w).1 := by
  induction ops generalizing w with
  | nil => exact .nil
  | cons op ops ih =>
    obtain ⟨r, w', hr, hq, hw'⟩ := opens_perform hd op w hw
    simp only [World.performAll, hr]
    exact .cons hq (ih w' hw')

end

end Simulation.Site

namespace Simulation

/-- On a machine in good health, operations with any arguments, one after the other, end each in one of
    three ways. The version does not have the message that the operation sends; or it has, and the
    arguments are none for this machine; or the operation works. Nothing that the driver sends is ever
    refused by the firmware or left without an answer. -/
theorem driver_and_firmware_agree {c : Config} {v : UInt32} {t : Topology} {m : State} (h : Healthy c v t m)
    {s : Session} (hs : s.config = c) (ops : List Operation) :
    List.Forall₂ (fun op r =>
      ((∃ id required, r = .error (.versionMismatch id required v)) ↔ op.Exceeds v) ∧
      ((∃ cause, r = .error (.invalidArgument cause)) ↔
        ¬ op.Exceeds v ∧ op.Misused m.processor t m.cpus) ∧
      ((∃ a, r = .ok a) ↔ ¬ op.Exceeds v ∧ ¬ op.Misused m.processor t m.cpus) ∧
      ∀ e, r = .error e → (∀ id, e ≠ .firmwareRejected id) ∧ (∀ status, e ≠ .hardware status) ∧
        ∀ id polls, e ≠ .timeout id polls)
      ops (World.performAll machine s ops ⟨m, {}⟩).1 := by
  obtain ⟨firmware, hdoor⟩ := h.door hs
  have hd : h.site.Describes s ⟨m.processor, t, m.cpus, ⟨firmware, v⟩⟩ := ⟨hs, rfl, rfl, rfl⟩
  refine (Site.opens_performAll hd ops _ hdoor).imp fun op r hr => ?_
  by_cases hx : op.Exceeds v
  · obtain ⟨id, hid, hlt⟩ := hx
    obtain rfl : r = .error (.versionMismatch id id.minVersion v) := hr.old id hid hlt
    have hx : op.Exceeds v := ⟨id, hid, hlt⟩
    simp [hx]
  · have hends := hr.ends fun id hid => UInt32.not_lt.mp fun hlt => hx ⟨id, hid, hlt⟩
    by_cases hP : op.Misused m.processor t m.cpus
    · obtain ⟨cause, rfl⟩ := hends.refused hP
      simp [hx, hP]
    · obtain ⟨a, rfl, -⟩ := hends.done hP
      simp [hx, hP]

/-- The crossed machine with one CPU on each socket, and a third on none. -/
def sound : State :=
  { Topology.crossed with
    sockets := Topology.crossed.sockets.map fun s =>
      { s with firmware := { s.firmware with boostLimits := [(16, 3500)] } }
    cpus := ⟨[(0, ⟨0, 16⟩), (1, ⟨1, 16⟩), (2, ⟨2, 32⟩)]⟩ }

theorem sound_sockets {s : Socket} (hs : s ∈ sound.sockets) :
    s.firmware.Willing 3 ∧ s.firmware.boostLimits = [(16, 3500)] := by
  obtain ⟨s', hs', rfl⟩ := List.mem_map.mp hs
  obtain rfl | rfl : s' = _ ∨ s' = _ := by simpa [Topology.crossed, ofPlans] using hs'
  · exact ⟨⟨rfl, rfl, rfl, rfl⟩, rfl⟩
  · exact ⟨⟨rfl, rfl, rfl, rfl⟩, rfl⟩

theorem sound_healthy : Healthy config 3 Topology.crossedTable sound where
  polls := by decide
  lock := by
    show (sound.storage.lock config.lockPath).1 = .ok ()
    decide +kernel
  privileged := rfl
  processor := by decide
  version := by decide
  firmware _ hs := (sound_sockets hs).1
  devices := by decide +kernel
  found := by decide +kernel
  discovery := by
    show (World.run machine (Topology.ofDevices Topology.crossed.found) ⟨{ sound with scans := 1 }, {}⟩).1 = _
    rw [Topology.ofDevices, Topology.arrange_crossed, Topology.byBus_crossed]
    decide +kernel
  boost p hp x s hx hs := by
    obtain ⟨d, -, hd⟩ := State.behind_eq_some.mp hs
    rw [(sound_sockets (List.mem_of_getElem? hd)).2]
    obtain rfl | rfl | rfl : p = _ ∨ p = _ ∨ p = _ := by simpa [sound] using hp
    · rfl
    · rfl
    · cases hx

theorem sound_agrees : Healthy config 3 Topology.crossedTable sound ∧
    ∃ a cause cause', (World.performAll machine ⟨config⟩
      [.setCpuBoost 0 70000, .cpuBoost 2, .setLinkWidth .x16 .x2] ⟨sound, {}⟩).1 =
        [.ok a, .error (.invalidArgument cause), .error (.invalidArgument cause')] := by
  have h := driver_and_firmware_agree sound_healthy (s := ⟨config⟩) rfl
    [.setCpuBoost 0 70000, .cpuBoost 2, .setLinkWidth .x16 .x2]
  have hv : ∀ op id, Operation.message? op = some id → ¬ (3 : UInt32) < id.minVersion → ¬ op.Exceeds 3 := by
    rintro op id hid hle ⟨id', hid', hlt⟩
    rw [hid] at hid'
    cases hid'
    exact hle hlt
  generalize (World.performAll machine ⟨config⟩ _ ⟨sound, {}⟩).1 = rs at h
  obtain _ | ⟨h₁, _ | ⟨h₂, _ | ⟨h₃, ⟨⟩⟩⟩⟩ := h
  obtain ⟨a, rfl⟩ := h₁.2.2.1.mpr ⟨hv _ _ rfl (by decide), fun hm => by
    rcases hm ⟨0, 16⟩ rfl with h | h <;> revert h <;> decide⟩
  obtain ⟨cause, rfl⟩ := h₂.2.1.mpr ⟨hv _ _ rfl (by decide), fun e he => by
    cases he
    exact Or.inr (by decide)⟩
  obtain ⟨cause', rfl⟩ := h₃.2.1.mpr ⟨hv _ _ rfl (by decide), Or.inl (by decide)⟩
  exact ⟨sound_healthy, a, cause, cause', rfl⟩

end Simulation

end FirmwareMailbox
