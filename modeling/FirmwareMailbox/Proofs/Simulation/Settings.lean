/-
  FirmwareMailbox.Proofs.Simulation.Settings — what operations make of the settings of a machine.

  The settings of a machine are those of the firmware of all its sockets; its records of messages are none
  (`State.settings`). On a machine that serves, they alone decide what firmware answers, and an exchange is
  the firmware's own step in the one place of the list where the mailbox has its seat (`Turns.exchange`). So
  an errand changes the settings in the seats of the sockets that it goes to, each as its message says, and
  no others (`Turns.errand`).

  Passing the gate changes none, even if the machine has to be learned. So every operation leaves the settings
  alone, or does its errand on them (`Waits.perform`), and this goes on for any number of operations.
-/

import FirmwareMailbox.Proofs.Simulation.Agreement
import FirmwareMailbox.Proofs.Simulation.Relearning
import FirmwareMailbox.Proofs.Simulation.Seats

namespace FirmwareMailbox

/-! ## One message -/

namespace Firmware

/-- The firmware after a message, if it takes it. -/
def after (msg : Message) (f : Firmware) : Firmware :=
  match f.perform (msg.args.headD 0) msg.id with
  | .ok (_, f') => f'
  | .error _ => f

theorem after_eq {msg : Message} {f f' : Firmware} {ws : List UInt32}
    (h : f.perform (msg.args.headD 0) msg.id = .ok (ws, f')) : f.after msg = f' := by
  simp only [after, h]

/-- The records decide nothing. -/
theorem perform_unrecorded (f : Firmware) (arg : UInt32) (id : MessageId) :
    f.unrecorded.perform arg id = (f.perform arg id).map fun p => (p.1, p.2.unrecorded) := by
  have hu : f.unrecorded = { ({ f with log := [] } : Firmware) with statusPolls := 0 } := rfl
  rw [hu, perform_statusPolls, perform_log]
  cases f.perform arg id <;> rfl

theorem unrecorded_perform {f f' : Firmware} {arg : UInt32} {id : MessageId} {ws : List UInt32}
    (h : f.perform arg id = .ok (ws, f')) : f.unrecorded.perform arg id = .ok (ws, f'.unrecorded) := by
  rw [perform_unrecorded, h]
  rfl

theorem perform_of_unrecorded {f g : Firmware} {arg : UInt32} {id : MessageId} {ws : List UInt32}
    (h : f.unrecorded.perform arg id = .ok (ws, g)) : ∃ f', f.perform arg id = .ok (ws, f') ∧ f'.unrecorded = g := by
  rw [perform_unrecorded] at h
  cases hp : f.perform arg id with
  | error code =>
    rw [hp] at h
    cases h
  | ok p =>
    rw [hp] at h
    cases h
    exact ⟨p.2, rfl, rfl⟩

end Firmware

namespace Simulation

/-! ## Changing some places of a list -/

/-- The settings `F` with those in these seats changed. -/
def adjust (seats : List Nat) (g : Firmware → Firmware) (F : List Firmware) : List Firmware :=
  F.mapIdx fun i f => if i ∈ seats then g f else f

section

variable {seats : List Nat} {g : Firmware → Firmware} {F : List Firmware} {i : Nat} {f : Firmware}

theorem getElem?_adjust : (adjust seats g F)[i]? = (F[i]?).map fun f => if i ∈ seats then g f else f :=
  List.getElem?_mapIdx

@[simp] theorem adjust_nil : adjust [] g F = F := by
  apply List.ext_getElem?
  intro i
  simp [getElem?_adjust]

theorem adjust_unchanged (hg : ∀ f, g f = f) : adjust seats g F = F := by
  apply List.ext_getElem?
  intro i
  simp [getElem?_adjust, hg]

/-- One seat after the other. -/
theorem adjust_cons (h : F[i]? = some f) (hi : i ∉ seats) :
    adjust (i :: seats) g F = adjust seats g (F.set i (g f)) := by
  apply List.ext_getElem?
  intro j
  rw [getElem?_adjust, getElem?_adjust]
  by_cases hj : j = i
  · subst hj
    rw [List.getElem?_set_self (List.getElem?_eq_some_iff.mp h).1, h]
    simp [hi]
  · rw [List.getElem?_set_ne (Ne.symm hj)]
    simp [hj]

end

/-! ## Settings -/

namespace State

/-- What the firmware of each socket is set to. -/
def settings (m : State) : List Firmware := m.sockets.map (·.firmware.unrecorded)

/-- The seats of these sockets. -/
def seats (m : State) (t : Topology) (ns : List Nat) : List Nat := ns.filterMap (m.seat t)

theorem Kin.settings {m m' : State} (h : m.Kin Firmware.unrecorded m') : m'.settings = m.settings := by
  apply List.ext_getElem
  · simp only [State.settings, List.length_map]
    exact h.count.symm
  · intro i hi hi'
    simp only [State.settings, List.length_map] at hi hi'
    simp only [State.settings, List.getElem_map]
    exact (h.sockets i _ _ (List.getElem?_eq_getElem hi') (List.getElem?_eq_getElem hi)).firmware.symm

end State

namespace Site

variable {α β : Type} {S : Site} {home : State} {s : Session} {inv : Inventory} {mem : Memory}
  {F F' F'' : List Firmware}

/-- The machine serves, its devices are wired like those at home, and it has these settings. -/
structure Shows (S : Site) (home : State) (F : List Firmware) (m : State) : Prop where
  serving : S.Serving m
  wiring : m.devices.map Device.wiring = home.devices.map Device.wiring
  settings : m.settings = F

/-- With the settings `F`, the job ends in `r`, leaves the memory alone and the settings at `F'`. -/
def Turns (S : Site) (home : State) (mem : Memory) (j : Job α) (F : List Firmware) (r : Except Error α)
    (F' : List Firmware) : Prop :=
  ∀ m, S.Shows home F m → ∃ m', World.run machine j ⟨m, mem⟩ = (r, ⟨m', mem⟩) ∧ S.Shows home F' m'

/-- Behind the mailbox tile of a socket is willing firmware with the settings in the socket's seat. -/
theorem Shows.seat {m : State} {n : Nat} {x : Tile} (hm : S.Shows home F m)
    (hx : S.topology.mailboxTile n = .ok x) :
    ∃ d sk, m.Has x.handle d ∧ m.sockets[d.socket]? = some sk ∧ sk.firmware.Willing S.version ∧
      m.behind x.handle = some sk ∧ home.seat S.topology n = some d.socket ∧
      F[d.socket]? = some sk.firmware.unrecorded := by
  obtain ⟨sk, hb, hw⟩ := hm.serving.tiles x (Topology.mailboxTile_mem hx)
  obtain ⟨d, hd, hs⟩ := State.behind_eq_some.mp hb
  refine ⟨d, sk, hd, hs, hw, hb, ?_, ?_⟩
  · rw [← State.seat_of_wiring hm.wiring]
    exact State.seat_eq_some.mpr ⟨x, d, hx, hd.device, rfl⟩
  · rw [← hm.settings, State.settings, List.getElem?_map, hs]
    rfl

namespace Turns

theorem lift (x : Except Error α) : S.Turns home mem (liftM x) F x F := fun m hm => ⟨m, rfl, hm⟩

theorem bind {j : Job α} {f : α → Job β} {a : α} {r : Except Error β} (hj : S.Turns home mem j F (.ok a) F')
    (hf : S.Turns home mem (f a) F' r F'') : S.Turns home mem (j >>= f) F r F'' := by
  intro m hm
  obtain ⟨m', hr, hm'⟩ := hj m hm
  obtain ⟨m'', hr', hm''⟩ := hf m' hm'
  exact ⟨m'', (World.run_bind_ok hr).trans hr', hm''⟩

theorem bind_error {j : Job α} {f : α → Job β} {e : Error} (hj : S.Turns home mem j F (.error e) F') :
    S.Turns home mem (j >>= f) F (.error e) F' := by
  intro m hm
  obtain ⟨m', hr, hm'⟩ := hj m hm
  exact ⟨m', World.run_bind_error hr, hm'⟩

/-- An exchange is the firmware's step, in the seat of the mailbox. -/
theorem exchange {n i : Nat} {x : Tile} {msg : Message} {f f' : Firmware} {ws : List UInt32}
    (hmem : mem.disabled = false) (hx : S.topology.mailboxTile n = .ok x)
    (hi : home.seat S.topology n = some i) (hf : F[i]? = some f) (hm : msg.Fits)
    (hid : msg.id.minVersion ≤ S.version) (hperf : f.perform (msg.args.headD 0) msg.id = .ok (ws, f'))
    (highest : Option MessageId) :
    S.Turns home mem (msg.exchange S.config x.handle highest) F (.ok ws) (F.set i f') := by
  intro m hS
  obtain ⟨d, sk, hd, hs, hw, -, hseat, hset⟩ := hS.seat hx
  cases hi.symm.trans hseat
  cases hf.symm.trans hset
  obtain ⟨g, hg, rfl⟩ := Firmware.perform_of_unrecorded hperf
  obtain ⟨j, r, hrun, hserve⟩ := hS.serving.run_exchange hmem hd hs hw hm hid hg highest
  refine ⟨_, hrun, hserve, ?_, ?_⟩
  · rw [← hS.wiring]
    exact State.map_wiring_set { d with hsmpIndex := j } hd.device rfl
  · show (m.sockets.set d.socket _).map (·.firmware.unrecorded) = _
    rw [List.map_set, ← hS.settings]
    rfl

/-- So is a delivery. -/
theorem deliver {n i : Nat} {msg : Message} {f f' : Firmware} {ws : List UInt32} (hd : S.Describes s inv)
    (hk : Knows inv mem) (hi : home.seat S.topology n = some i) (hf : F[i]? = some f) (hm : msg.Fits)
    (hid : msg.id.minVersion ≤ S.version) (hperf : f.perform (msg.args.headD 0) msg.id = .ok (ws, f')) :
    S.Turns home mem (s.deliver inv n msg) F (.ok ws) (F.set i f') := by
  obtain ⟨x, _, hx, -, -⟩ := State.seat_eq_some.mp hi
  unfold Session.deliver
  rw [hd.topology, hd.config, hx]
  exact (lift (.ok x)).bind (exchange hk.working hx hi hf hm hid hperf _)

/-- A socket that is not there gets nothing. -/
theorem deliver_absent {n : Nat} {msg : Message} (hd : S.Describes s inv) (hn : S.topology.socketCount ≤ n) :
    S.Turns home mem (s.deliver inv n msg) F
      (.error (.invalidArgument (.absentSocket n S.topology.socketCount))) F := by
  unfold Session.deliver
  rw [hd.topology, Topology.mailboxTile_absent hn]
  exact bind_error (lift _)

/-- A delivery to every socket is a step of the firmware in every seat. -/
theorem deliverAll {msg : Message} (hd : S.Describes s inv) (hk : Knows inv mem)
    (hseated : home.Seated S.topology) (hm : msg.Fits) (hid : msg.id.minVersion ≤ S.version)
    (hq : ∀ m n x sk, S.Serving m → n < S.topology.socketCount → S.topology.mailboxTile n = .ok x →
      m.behind x.handle = some sk → ∃ ws f', sk.firmware.perform (msg.args.headD 0) msg.id = .ok (ws, f')) :
    S.Turns home mem (s.deliverAll inv msg) F (.ok ())
      (adjust (home.seats S.topology (List.range S.topology.socketCount)) (Firmware.after msg) F) := by
  have hfrom : ∀ k i F, i + k ≤ S.topology.socketCount → S.Turns home mem (s.deliverFrom inv msg i k) F (.ok ())
      (adjust (home.seats S.topology (List.range' i k)) (Firmware.after msg) F) := by
    intro k
    induction k with
    | zero =>
      intro i F _
      rw [State.seats, List.range'_zero, List.filterMap_nil, adjust_nil]
      exact lift (.ok ())
    | succ k ih =>
      intro i F hi m hS
      obtain ⟨x, -, hx⟩ := Topology.mailboxTile_present (show i < S.topology.socketCount by omega)
      obtain ⟨d, sk, -, -, -, hb, hseat, hset⟩ := hS.seat hx
      obtain ⟨ws, f', htaken⟩ := hq m i x sk hS.serving (by omega) hx hb
      have hperf := Firmware.unrecorded_perform htaken
      -- the seat is none of those that come later
      have hnew : d.socket ∉ home.seats S.topology (List.range' (i + 1) k) := by
        intro hmem
        obtain ⟨n, hn, hseat'⟩ := List.mem_filterMap.mp hmem
        have hsame := hseated.apart hseat hseat'
        rw [List.mem_range'_1] at hn
        omega
      have hlist : home.seats S.topology (List.range' i (k + 1)) =
          d.socket :: home.seats S.topology (List.range' (i + 1) k) := by
        rw [State.seats, List.range'_succ, List.filterMap_cons, hseat]
        rfl
      rw [hlist, adjust_cons hset hnew, Firmware.after_eq hperf]
      exact ((deliver hd hk hseat hset hm hid hperf).bind (ih (i + 1) _ (by omega))) m hS
  unfold Session.deliverAll
  rw [hd.topology, List.range_eq_range']
  exact hfrom _ 0 F (by omega)

end Turns

/-! ## Errands -/

/-- A number that fits into 16 bits keeps its value there. -/
theorem narrowApicId_ok {cpu : Nat} {apicId : UInt32} {narrow : UInt16}
    (h : Session.narrowApicId cpu apicId = .ok narrow) : narrow.toUInt32 = apicId := by
  unfold Session.narrowApicId at h
  split at h
  · cases h
  · cases h
    exact toUInt16_toUInt32 (UInt32.not_lt.mp ‹_›)

/-- What the driver sends on an errand the firmware takes. -/
theorem Serving.takes {m : State} {op : Operation} {e : Errand} {msg : Message} {n : Nat} {x : Tile} {sk : Socket}
    (hS : S.Serving m) (hd : S.Describes s inv) (ho : op.disorder? = none) (he : op.errand inv = .ok e)
    (hmsg : e.message? = some msg) (hn : n ∈ e.sockets inv) (hx : S.topology.mailboxTile n = .ok x)
    (hb : m.behind x.handle = some sk) :
    ∃ ws f', sk.firmware.perform (msg.args.headD 0) msg.id = .ok (ws, f') := by
  cases op
  case firmwareVersion | interfaceVersion | busAfter i | lowestBuses =>
    cases he
    cases hmsg
  case cpuBoost cpu =>
    obtain ⟨entry, narrow, hget, hnarrow, rfl⟩ := Operation.ok_of_cpu he
    cases hmsg
    obtain rfl := List.mem_singleton.mp hn
    rw [hd.cpus] at hget
    obtain ⟨limit, hlimit⟩ := hS.limit (CpuTable.get_eq_ok.mp hget) hx hb
    exact ⟨[limit], sk.firmware, by simp only [List.headD_cons, Firmware.perform, narrowApicId_ok hnarrow, hlimit]⟩
  case setCpuBoost cpu mhz =>
    obtain ⟨entry, narrow, hget, hnarrow, rfl⟩ := Operation.ok_of_cpu he
    cases hmsg
    obtain rfl := List.mem_singleton.mp hn
    rw [hd.cpus] at hget
    obtain ⟨limit, hlimit⟩ := hS.limit (CpuTable.get_eq_ok.mp hget) hx hb
    simp only [List.headD_cons, Firmware.perform, encode_boostLimit_apicId, narrowApicId_ok hnarrow, hlimit]
    exact ⟨_, _, rfl⟩
  case setInterfaceState bus p =>
    obtain ⟨tile, htile, rfl⟩ := Operation.ok_of_bus he
    cases hmsg
    obtain ⟨y, hy⟩ := S.arranged.spans.filter_covers (Nat.zero_le bus.toNat)
    rw [hd.topology, Topology.busTile_of_filter hy] at htile
    cases htile
    exact levels_taken (Topology.tile_of_bus S.arranged S.numbers hy).2 p sk.firmware
  case setLinkWidth min max =>
    obtain rfl := Operation.ok_of_widths he
    cases hmsg
    have horder : ¬ max < min := by
      intro hlt
      simp [Operation.disorder?, hlt] at ho
    exact widths_taken horder sk.firmware
  case setLinkWidthAuto =>
    obtain rfl := Operation.ok_of_widths he
    cases hmsg
    exact widths_taken (Operation.not_widest_lt _) sk.firmware
  case setFabricState n p =>
    cases he
    cases p <;> cases hmsg <;> exact ⟨_, _, rfl⟩
  all_goals
    cases he
    cases hmsg
    exact ⟨_, _, rfl⟩

/-- What becomes of an errand to sockets with the settings `F`: its result, and the settings after it. -/
inductive Done (S : Site) (home : State) (F : List Firmware) :
    Errand → Except Error Answer → List Firmware → Prop
  | known (x : Except Error Answer) : Done S home F (.known x) x F
  | absent {n : Nat} {msg : Message} {read : List UInt32 → Except Error Answer} (e : Error) :
      home.seat S.topology n = none → Done S home F (.send n msg read) (.error e) F
  | sent {n i : Nat} {msg : Message} {read : List UInt32 → Except Error Answer} {f f' : Firmware}
      {ws : List UInt32} : home.seat S.topology n = some i → F[i]? = some f →
      f.perform (msg.args.headD 0) msg.id = .ok (ws, f') → Done S home F (.send n msg read) (read ws) (F.set i f')
  | sentAll (msg : Message) : Done S home F (.sendAll msg) (.ok .nothing)
      (adjust (home.seats S.topology (List.range S.topology.socketCount)) (Firmware.after msg) F)

/-- An errand is done on the settings. -/
theorem Turns.errand {op : Operation} {e : Errand} (hd : S.Describes s inv) (hk : Knows inv mem)
    (hseated : home.Seated S.topology) (ho : op.disorder? = none) (he : op.errand inv = .ok e)
    (hv : ∀ id, op.message? = some id → id.minVersion ≤ S.version) {m : State} (hm : S.Shows home F m) :
    ∃ r F', S.Done home F e r F' ∧
      ∃ m', World.run machine (e.perform s inv) ⟨m, mem⟩ = (r, ⟨m', mem⟩) ∧ S.Shows home F' m' := by
  obtain ⟨hid, hfits⟩ := Operation.errand_message he
  have hversion : ∀ msg, e.message? = some msg → msg.id.minVersion ≤ S.version := by
    intro msg hmsg
    rw [hmsg] at hid
    exact hv _ hid.symm
  have htakes : ∀ {m : State} {msg : Message} {n : Nat} {x : Tile} {sk : Socket}, S.Serving m →
      e.message? = some msg → n ∈ e.sockets inv → S.topology.mailboxTile n = .ok x →
      m.behind x.handle = some sk → ∃ ws f', sk.firmware.perform (msg.args.headD 0) msg.id = .ok (ws, f') :=
    fun hS hmsg hn hx hb => hS.takes hd ho he hmsg hn hx hb
  cases e with
  | known x => exact ⟨x, F, .known x, Turns.lift x m hm⟩
  | send n msg read =>
    by_cases hn : S.topology.socketCount ≤ n
    · exact ⟨_, F, .absent _ (State.seat_absent hn), (Turns.deliver_absent hd hn).bind_error m hm⟩
    · obtain ⟨x, -, hx⟩ := Topology.mailboxTile_present (Nat.lt_of_not_le hn)
      obtain ⟨d, sk, -, -, -, hb, hseat, hset⟩ := hm.seat hx
      obtain ⟨ws, f', htaken⟩ := htakes hm.serving rfl (List.mem_singleton_self n) hx hb
      have hperf := Firmware.unrecorded_perform htaken
      have hturn : S.Turns home mem ((Errand.send n msg read).perform s inv) F (read ws)
          (F.set d.socket f'.unrecorded) :=
        (Turns.deliver hd hk hseat hset (hfits _ rfl) (hversion _ rfl) hperf).bind (Turns.lift (read ws))
      exact ⟨read ws, _, .sent hseat hset hperf, hturn m hm⟩
  | sendAll msg =>
    have hq : ∀ m n x sk, S.Serving m → n < S.topology.socketCount → S.topology.mailboxTile n = .ok x →
        m.behind x.handle = some sk →
        ∃ ws f', sk.firmware.perform (msg.args.headD 0) msg.id = .ok (ws, f') := by
      intro m n x sk hS hn hx hb
      refine htakes hS rfl (List.mem_range.mpr ?_) hx hb
      rwa [hd.topology]
    have hturn : S.Turns home mem ((Errand.sendAll msg).perform s inv) F (.ok .nothing)
        (adjust (home.seats S.topology (List.range S.topology.socketCount)) (Firmware.after msg) F) :=
      (Turns.deliverAll hd hk hseated (hfits _ rfl) (hversion _ rfl) hq).bind (Turns.lift (.ok Answer.nothing))
    exact ⟨.ok .nothing, _, .sentAll msg, hturn m hm⟩

/-! ## Operations -/

/-- The gate opens on this inventory, and the settings stay as they are. -/
def Waits (S : Site) (home : State) (s : Session) (inv : Inventory) (w : World State) : Prop :=
  ∀ m?, ∃ m' mem', World.run machine (s.gate m?) w = (Session.letPass m? inv, ⟨m', mem'⟩) ∧ Knows inv mem' ∧
    S.Shows home w.machine.settings m'

/-- An operation was refused before it was sent on its errand, or the errand was done. -/
inductive Became (S : Site) (home : State) (inv : Inventory) (op : Operation) (F : List Firmware) :
    Except Error Answer → List Firmware → Prop
  | refused (e : Error) : Became S home inv op F (.error e) F
  | done {e : Errand} {r : Except Error Answer} {F' : List Firmware} : op.errand inv = .ok e →
      S.Done home F e r F' → Became S home inv op F r F'

theorem waits_known {m : State} (hm : S.Shows home F m) (hk : Knows inv mem) : S.Waits home s inv ⟨m, mem⟩ :=
  fun m? => ⟨m, mem, run_gate_known hm.serving hk m?, hk, hm.serving, hm.wiring, rfl⟩

/-- Where the machine is known, an operation that the gate lets pass goes on its errand. -/
theorem run_rest {op : Operation} {m : State} (hm : S.Serving m) (hk : Knows inv mem)
    (hpass : Session.letPass op.asks inv = .ok inv) : World.run machine (op.rest s inv) ⟨m, mem⟩ =
      World.run machine (liftM (op.errand inv) >>= fun e => e.perform s inv) ⟨m, mem⟩ := by
  by_cases ha : op = .setLinkWidthAuto
  · subst ha
    -- it passes the gate once more, for the widths that it comes to
    have hgate := run_gate_known (s := s) hm hk Operation.setLinkWidthAuto.asks
    rw [hpass] at hgate
    show World.run machine ((Operation.setLinkWidth (LinkWidth.floor inv.processor) .x16).perform s) ⟨m, mem⟩ = _
    rw [Operation.perform_gate s (Operation.disorder?_widest _)]
    exact World.run_bind_ok hgate
  · rw [Operation.rest_eq s inv ha]

namespace Waits

variable {w : World State} (hd : S.Describes s inv) (hseated : home.Seated S.topology)

include hd hseated

/-- What an operation does behind the gate, where the machine is known. -/
theorem errand {op : Operation} {m : State} (ho : op.disorder? = none) (hk : Knows inv mem)
    (hv : ∀ id, op.message? = some id → id.minVersion ≤ S.version) (hm : S.Shows home F m) :
    ∃ r w', World.run machine (liftM (op.errand inv) >>= fun e => e.perform s inv) ⟨m, mem⟩ = (r, w') ∧
      S.Waits home s inv w' ∧ S.Became home inv op F r w'.machine.settings := by
  cases he : op.errand inv with
  | error e =>
    refine ⟨.error e, ⟨m, mem⟩, rfl, waits_known hm hk, ?_⟩
    rw [show (⟨m, mem⟩ : World State).machine.settings = F from hm.settings]
    exact .refused e
  | ok e =>
    obtain ⟨r, F', hdone, m', hrun, hm'⟩ := Turns.errand hd hk hseated ho he hv hm
    refine ⟨r, ⟨m', mem⟩, hrun, waits_known hm' hk, ?_⟩
    rw [show (⟨m', mem⟩ : World State).machine.settings = F' from hm'.settings]
    exact .done he hdone

/-- An operation changes settings as its errand says, and leaves the door open for the next. -/
theorem perform (op : Operation) (hw : S.Waits home s inv w) : ∃ r w', World.run machine (op.perform s) w = (r, w') ∧
    S.Waits home s inv w' ∧ S.Became home inv op w.machine.settings r w'.machine.settings := by
  cases ho : op.disorder? with
  | some cause =>
    rw [Operation.perform_disorder s ho]
    exact ⟨_, w, rfl, hw, .refused _⟩
  | none =>
    rw [Operation.perform_gate s ho]
    obtain ⟨m', mem', hgate, hk, hm⟩ := hw op.asks
    cases hpass : Session.letPass op.asks inv with
    | error e =>
      rw [hpass] at hgate
      refine ⟨_, ⟨m', mem'⟩, World.run_bind_error hgate, waits_known hm hk, ?_⟩
      rw [show (⟨m', mem'⟩ : World State).machine.settings = _ from hm.settings]
      exact .refused e
    | ok inv' =>
      obtain rfl := Session.letPass_eq_ok hpass
      rw [hpass] at hgate
      have hv : ∀ id, op.message? = some id → id.minVersion ≤ S.version := by
        intro id hid
        obtain ⟨asked, hasked, hle⟩ := Operation.asks_covers op hid
        rw [hasked, hd.letPass] at hpass
        split at hpass
        · exact UInt32.le_trans hle ‹_›
        · cases hpass
      obtain ⟨r, w', hrun, hw', hbecame⟩ := errand hd hseated ho hk hv hm
      refine ⟨r, w', (World.run_bind_ok hgate).trans ((run_rest hm.serving hk hpass).trans hrun), hw', hbecame⟩

/-- So do operations one after the other. -/
theorem performAll (ops : List Operation) (hw : S.Waits home s inv w) :
    S.Waits home s inv (World.performAll machine s ops w).2 := by
  induction ops generalizing w with
  | nil => exact hw
  | cons op ops ih =>
    obtain ⟨r, w', hrun, hw', -⟩ := perform hd hseated op hw
    show S.Waits home s inv
      (World.performAll machine s ops (World.run machine (op.perform s) w).2).2
    rw [hrun]
    exact ih hw'

end Waits

end Site

/-- A new process at a machine in good health waits at the door, and learning the machine will change no
    setting. -/
theorem Healthy.waits {c : Config} {v : UInt32} {t : Topology} {m : State} (h : Healthy c v t m) {s : Session}
    (hs : s.config = c) : ∃ firmware, h.site.Waits m s ⟨m.processor, t, m.cpus, ⟨firmware, v⟩⟩ ⟨m, {}⟩ := by
  obtain ⟨firmware, m₁, hlearn, -⟩ := h.run_learn s hs
  obtain ⟨firmware', hdoor⟩ := h.door hs
  have hversed : Versed s ⟨m.processor, t, m.cpus, ⟨firmware, v⟩⟩ ⟨m, {}⟩ := by
    refine ⟨⟨⟨_, _, _, ⟨hlearn, rfl⟩, .refl m⟩, ?_, h.privileged⟩, fun _ hi => by cases hi⟩
    rw [hs]
    exact h.lock
  refine ⟨firmware', fun m? => ?_⟩
  obtain ⟨m', mem', hgate, hk, hserve⟩ := hdoor m?
  obtain ⟨_, u, hrun, -, -, -, hkin, -⟩ := hversed.gate rfl m?
  cases (Prod.mk.inj (hgate.symm.trans hrun.run)).2
  exact ⟨m', mem', hgate, hk, hserve, hkin.devices.symm, hkin.settings⟩

/-- After any operations it still does. -/
theorem Healthy.waits_after {c : Config} {v : UInt32} {t : Topology} {m : State} (h : Healthy c v t m)
    {s : Session} (hs : s.config = c) :
    ∃ firmware, h.site.Describes s ⟨m.processor, t, m.cpus, ⟨firmware, v⟩⟩ ∧ ∀ ops,
      h.site.Waits m s ⟨m.processor, t, m.cpus, ⟨firmware, v⟩⟩ (World.performAll machine s ops ⟨m, {}⟩).2 := by
  obtain ⟨firmware, hwaits⟩ := h.waits hs
  have hd : h.site.Describes s ⟨m.processor, t, m.cpus, ⟨firmware, v⟩⟩ := ⟨hs, rfl, rfl, rfl⟩
  exact ⟨firmware, hd, fun ops => Site.Waits.performAll hd h.seated ops hwaits⟩

end Simulation

end FirmwareMailbox
