/-
  FirmwareMailbox.Proofs.Simulation.Changing — what each operation that changes a setting changes.

  On a machine in good health an operation is its errand on the settings (`Waits.perform`), so it is enough
  to see what the firmware does with the message. The operations that read send messages that change
  nothing (`Operation.reads`, `Became.of_reads`). A power limit, a state of the fabric and a range of
  widths go each into one field; nothing else of the list of settings is another afterwards. Letting the
  widths float is the range of widths that the processor allows, with one more passage of the gate.
-/

import FirmwareMailbox.Proofs.Simulation.Settings

namespace FirmwareMailbox

/-- The operation asks for no change. -/
def Operation.reads : Operation → Bool
  | .setPowerLimit .. | .setCpuBoost .. | .setSocketBoost .. | .setSystemBoost _ | .setFabricState ..
  | .setInterfaceState .. | .setLinkWidth .. | .setLinkWidthAuto => false
  | _ => true

/-- What an operation that reads sends changes nothing. -/
theorem Operation.perform_of_reads {op : Operation} (hr : op.reads = true) {id : MessageId}
    (hid : op.message? = some id) {f f' : Firmware} {arg : UInt32} {ws : List UInt32}
    (h : f.perform arg id = .ok (ws, f')) : f' = f := by
  cases op
  case setPowerLimit | setCpuBoost | setSocketBoost | setSystemBoost | setFabricState | setInterfaceState |
      setLinkWidth | setLinkWidthAuto =>
    cases hr
  case firmwareVersion | interfaceVersion | busAfter | lowestBuses => cases hid
  case cpuBoost cpu =>
    cases hid
    simp only [Firmware.perform] at h
    split at h <;> cases h
    rfl
  all_goals
    cases hid
    cases h
    rfl

namespace Simulation

namespace Site

variable {S : Site} {home : State} {s : Session} {inv : Inventory} {op : Operation} {F F' : List Firmware}
  {r : Except Error Answer}

/-- An operation that reads leaves all settings alone, whatever becomes of it. -/
theorem Became.of_reads (h : S.Became home inv op F r F') (hr : op.reads = true) : F' = F := by
  cases h with
  | refused e => rfl
  | done he hdone =>
    obtain ⟨hid, -⟩ := Operation.errand_message he
    cases hdone with
    | known x => rfl
    | absent e _ => rfl
    | @sent n i msg read f f' ws _ hf hperf =>
      rw [Operation.perform_of_reads hr hid.symm hperf]
      obtain ⟨hlt, rfl⟩ := List.getElem?_eq_some_iff.mp hf
      exact List.set_getElem_self hlt
    | sentAll msg =>
      refine adjust_unchanged fun f => ?_
      unfold Firmware.after
      split
      · rename_i hperf
        exact Operation.perform_of_reads hr hid.symm hperf
      · rfl

/-- What became of an operation that ended well. -/
theorem Became.of_ok {a : Answer} (h : S.Became home inv op F (.ok a) F') :
    ∃ e, op.errand inv = .ok e ∧ S.Done home F e (.ok a) F' := by
  cases h with
  | done he hdone => exact ⟨_, he, hdone⟩

/-- What a message to one socket that ended well has done there. -/
theorem Became.sent {n : Nat} {msg : Message} {read : List UInt32 → Except Error Answer} {a : Answer}
    (h : S.Became home inv op F (.ok a) F') (he : op.errand inv = .ok (.send n msg read)) :
    ∃ i f ws f', home.seat S.topology n = some i ∧ F[i]? = some f ∧
      f.perform (msg.args.headD 0) msg.id = .ok (ws, f') ∧ read ws = .ok a ∧ F' = F.set i f' := by
  obtain ⟨e, he', hdone⟩ := h.of_ok
  cases he.symm.trans he'
  generalize hr : Except.ok a = r at hdone
  cases hdone with
  | absent e _ => cases hr
  | @sent n i msg read f f' ws hi hf hperf => exact ⟨i, f, ws, f', hi, hf, hperf, rfl, rfl⟩

/-- The power limit of a socket is set, and clipped. -/
theorem Became.setPowerLimit {n : Nat} {limit : UInt32} {a : Answer}
    (h : S.Became home inv (.setPowerLimit n limit) F (.ok a) F') :
    ∃ i f, home.seat S.topology n = some i ∧ F[i]? = some f ∧
      F' = F.set i { f with powerLimit := min limit f.maxPowerLimit } := by
  obtain ⟨i, f, ws, f', hi, hf, hperf, -, hset⟩ := h.sent rfl
  cases hperf
  exact ⟨i, f, hi, hf, hset⟩

/-- The power limit that is read is the one in the socket's seat. -/
theorem Became.powerLimit {n i : Nat} {f : Firmware} {a : Answer}
    (h : S.Became home inv (.powerLimit n) F (.ok a) F') (hi : home.seat S.topology n = some i)
    (hf : F[i]? = some f) : a = .word f.powerLimit := by
  obtain ⟨i', g, ws, g', hi', hg, hperf, hread, -⟩ := h.sent rfl
  cases hi.symm.trans hi'
  cases hf.symm.trans hg
  cases hperf
  cases hread
  rfl

/-- The state of the fabric of a socket is pinned to its level, or to none. -/
theorem Became.setFabricState {n : Nat} {p : FabricState} {a : Answer}
    (h : S.Became home inv (.setFabricState n p) F (.ok a) F') :
    ∃ i f, home.seat S.topology n = some i ∧ F[i]? = some f ∧
      F' = F.set i { f with fabricState := p.level } := by
  obtain ⟨i, f, ws, f', hi, hf, hperf, -, hset⟩ := h.sent rfl
  have hf' : f' = { f with fabricState := p.level } := by
    cases p <;> exact (Prod.mk.inj (Except.ok.inj hperf)).2.symm
  exact ⟨i, f, hi, hf, hf' ▸ hset⟩

/-- The widths of the links are bounded on every socket. -/
theorem Became.setLinkWidth {min max : LinkWidth} {a : Answer}
    (h : S.Became home inv (.setLinkWidth min max) F (.ok a) F') (ho : ¬ max < min) :
    F' = adjust (home.seats S.topology (List.range S.topology.socketCount))
      (fun f => { f with linkWidths := some ((min.widthClass.toUInt32 <<< 8) ||| max.widthClass.toUInt32) }) F := by
  obtain ⟨e, he, hdone⟩ := h.of_ok
  obtain rfl := Operation.ok_of_widths he
  cases hdone with
  | sentAll msg => exact congrArg (adjust _ · F) (funext fun f => Firmware.after_eq (perform_widths ho f))

/-! ## At the door -/

/-- Every version has the messages of the first. -/
theorem has_first (S : Site) {id : MessageId} (hid : op.message? = some id) (h : id.minVersion = 1) :
    ∀ id', op.message? = some id' → id'.minVersion ≤ S.version := by
  intro id' hid'
  cases hid.symm.trans hid'
  rw [h]
  exact S.one_le_version

namespace Waits

variable {w w' : World State} {a : Answer} (hw : S.Waits home s inv w)

include hw

theorem door : S.Door s inv w := by
  intro m?
  obtain ⟨m', mem', hgate, hk, hm⟩ := hw m?
  exact ⟨m', mem', hgate, hk, hm.serving⟩

/-- Two operations that ask the gate for the same and are on the same errand are one. -/
theorem run_congr {op op' : Operation} (ho : op.disorder? = none) (ho' : op'.disorder? = none)
    (ha : op'.asks = op.asks) (he : op'.errand inv = op.errand inv) :
    World.run machine (op.perform s) w = World.run machine (op'.perform s) w := by
  rw [Operation.perform_gate s ho, Operation.perform_gate s ho', ha]
  obtain ⟨m', mem', hgate, hk, hm⟩ := hw op.asks
  cases hpass : Session.letPass op.asks inv with
  | error e =>
    rw [hpass] at hgate
    exact (World.run_bind_error hgate).trans (World.run_bind_error hgate).symm
  | ok inv' =>
    obtain rfl := Session.letPass_eq_ok hpass
    rw [hpass] at hgate
    rw [World.run_bind_ok hgate, World.run_bind_ok hgate, run_rest hm.serving hk hpass,
      run_rest hm.serving hk (ha ▸ hpass), he]

/-- Letting the widths float is setting the range that the processor allows. -/
theorem run_setLinkWidthAuto : World.run machine (Operation.setLinkWidthAuto.perform s) w =
    World.run machine ((Operation.setLinkWidth (LinkWidth.floor inv.processor) .x16).perform s) w :=
  run_congr hw rfl (Operation.disorder?_widest _) rfl rfl

variable (hd : S.Describes s inv) (hseated : home.Seated S.topology)

include hd hseated

/-- After an operation that ended well the door is open, and the settings are what became of them. -/
theorem of_ok {op : Operation} (hrun : World.run machine (op.perform s) w = (.ok a, w')) :
    S.Waits home s inv w' ∧ S.Became home inv op w.machine.settings (.ok a) w'.machine.settings := by
  obtain ⟨r, u, hrun', hu, hb⟩ := perform hd hseated op hw
  cases hrun.symm.trans hrun'
  exact ⟨hu, hb⟩

/-- An operation with arguments for this machine, whose message the version has, ends well. -/
theorem works {op : Operation} (hv : ∀ id, op.message? = some id → id.minVersion ≤ S.version)
    (hP : ¬ op.Misused inv.processor S.topology S.cpus) :
    ∃ a w', World.run machine (op.perform s) w = (.ok a, w') ∧ S.Waits home s inv w' ∧
      S.Became home inv op w.machine.settings (.ok a) w'.machine.settings := by
  obtain ⟨r, w', hrun, hverdict, -⟩ := opens_perform hd op w hw.door
  obtain ⟨a, rfl, -⟩ := (hverdict.ends hv).done hP
  exact ⟨a, w', hrun, of_ok hw hd hseated hrun⟩

/-- A power limit that was set is read again. -/
theorem powerLimit_read {n : Nat} {limit : UInt32}
    (hrun : World.run machine ((Operation.setPowerLimit n limit).perform s) w = (.ok a, w')) :
    ∃ i f, home.seat S.topology n = some i ∧ w.machine.settings[i]? = some f ∧
      w'.machine.settings = w.machine.settings.set i { f with powerLimit := min limit f.maxPowerLimit } ∧
      (World.run machine ((Operation.powerLimit n).perform s) w').1 = .ok (.word (min limit f.maxPowerLimit)) := by
  obtain ⟨hw', hbecame⟩ := of_ok hw hd hseated hrun
  obtain ⟨i, f, hi, hf, hset⟩ := hbecame.setPowerLimit
  have hpresent : ¬ S.topology.socketCount ≤ n := by
    intro hn
    cases hi.symm.trans (State.seat_absent hn)
  have hv := S.has_first (show (Operation.powerLimit n).message? = _ from rfl) rfl
  obtain ⟨b, w'', hread, -, hb⟩ := works hw' hd hseated hv hpresent
  have hlt := (List.getElem?_eq_some_iff.mp hf).1
  rw [hset] at hb
  obtain rfl := hb.powerLimit hi (List.getElem?_set_self hlt)
  exact ⟨i, f, hi, hf, hset, by rw [hread]⟩

end Waits

end Site

/-! ## Settings and their setters -/

/-- On a machine in good health, after any operations, an operation with arguments for the machine, whose
    message the version has, ends well, and those that end well change just what they are for. The power limit
    of a socket becomes the one asked for, or the highest that the socket takes, and is read so; the state of
    the fabric of a socket becomes the one asked for; the widths of the links become those asked for on every
    socket, and widths that are to float are those that the processor allows. No other setting of any socket is
    another afterwards, and an operation that reads leaves all of them alone. -/
theorem setters_change_their_own {c : Config} {v : UInt32} {t : Topology} {m : State} (h : Healthy c v t m)
    {s : Session} (hs : s.config = c) (ops : List Operation) :
    let w := (World.performAll machine s ops ⟨m, {}⟩).2
    m.Seated t ∧
    (∀ op : Operation, ¬ op.Exceeds v → ¬ op.Misused m.processor t m.cpus →
      ∃ a w', World.run machine (op.perform s) w = (.ok a, w')) ∧
    (∀ n limit a w', World.run machine ((Operation.setPowerLimit n limit).perform s) w = (.ok a, w') →
      ∃ i f, m.seat t n = some i ∧ w.machine.settings[i]? = some f ∧
        w'.machine.settings = w.machine.settings.set i { f with powerLimit := min limit f.maxPowerLimit } ∧
        (World.run machine ((Operation.powerLimit n).perform s) w').1 =
          .ok (.word (min limit f.maxPowerLimit))) ∧
    (∀ n p a w', World.run machine ((Operation.setFabricState n p).perform s) w = (.ok a, w') →
      ∃ i f, m.seat t n = some i ∧ w.machine.settings[i]? = some f ∧
        w'.machine.settings = w.machine.settings.set i { f with fabricState := p.level }) ∧
    (∀ min max a w', World.run machine ((Operation.setLinkWidth min max).perform s) w = (.ok a, w') →
      w'.machine.settings = adjust (m.seats t (List.range t.socketCount))
        (fun f => { f with linkWidths := some ((min.widthClass.toUInt32 <<< 8) ||| max.widthClass.toUInt32) })
        w.machine.settings) ∧
    World.run machine (Operation.setLinkWidthAuto.perform s) w =
      World.run machine ((Operation.setLinkWidth (LinkWidth.floor m.processor) .x16).perform s) w ∧
    ∀ op : Operation, op.reads = true →
      (World.run machine (op.perform s) w).2.machine.settings = w.machine.settings := by
  obtain ⟨firmware, hd, hafter⟩ := h.waits_after hs
  have hw := hafter ops
  refine ⟨h.seated, ?_, ?_, ?_, ?_, hw.run_setLinkWidthAuto, ?_⟩
  · intro op hx hP
    have hv : ∀ id, op.message? = some id → id.minVersion ≤ v :=
      fun id hid => UInt32.not_lt.mp fun hlt => hx ⟨id, hid, hlt⟩
    obtain ⟨a, w', hrun, -⟩ := hw.works hd h.seated hv hP
    exact ⟨a, w', hrun⟩
  · intro n limit a w' hrun
    exact hw.powerLimit_read hd h.seated hrun
  · intro n p a w' hrun
    exact (hw.of_ok hd h.seated hrun).2.setFabricState
  · intro min max a w' hrun
    have ho : ¬ max < min := by
      intro hlt
      have hd : (Operation.setLinkWidth min max).disorder? = some (.widths min max .widthOrder) := if_pos hlt
      rw [Operation.perform_disorder s hd] at hrun
      cases hrun
    exact (hw.of_ok hd h.seated hrun).2.setLinkWidth ho
  · intro op hr
    obtain ⟨r, w', hrun, -, hb⟩ := hw.perform hd h.seated op
    rw [hrun]
    exact hb.of_reads hr

theorem sound_limit_clipped : Healthy config 3 Topology.crossedTable sound ∧
    ∃ a w, World.run machine ((Operation.setPowerLimit 1 300000).perform ⟨config⟩) ⟨sound, {}⟩ = (.ok a, w) ∧
      (World.run machine ((Operation.powerLimit 1).perform ⟨config⟩) w).1 = .ok (.word 225000) := by
  obtain ⟨-, hworks, hset, -⟩ := setters_change_their_own sound_healthy (s := ⟨config⟩) rfl []
  have hx : ¬ (Operation.setPowerLimit 1 300000).Exceeds 3 := by
    rintro ⟨id, hid, hlt⟩
    cases hid
    exact absurd hlt (by decide)
  have hpresent : ¬ Topology.crossedTable.socketCount ≤ 1 := by decide
  obtain ⟨a, w, hrun⟩ := hworks (.setPowerLimit 1 300000) hx hpresent
  obtain ⟨i, f, -, hf, -, hread⟩ := hset 1 300000 a w hrun
  have hmax : ∀ f ∈ sound.settings, f.maxPowerLimit = 225000 := by decide +kernel
  have hclip : min 300000 f.maxPowerLimit = 225000 := by
    rw [hmax f (List.mem_of_getElem? hf)]
    decide
  exact ⟨sound_healthy, a, w, hrun, hclip ▸ hread⟩

end Simulation

end FirmwareMailbox
