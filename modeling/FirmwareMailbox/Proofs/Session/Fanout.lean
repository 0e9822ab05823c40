/-
  FirmwareMailbox.Proofs.Session.Fanout — one message for every socket.

  A send to every socket is a loop of deliveries (`Session.deliverAll_eq`), so it goes as far as the first
  delivery that fails. The deliveries before that one were whole transactions, and the devices of the
  sockets behind it were left alone (`FansOut`).

  The setter for the whole system passes the gate once and then delivers; a caller that goes through the
  sockets passes the gate for each. A delivery that succeeds leaves the gate as it was (`Open.deliver`), so
  nothing but the questions of the gate tells the two apart.
-/

import FirmwareMailbox.Proofs.Machine.Series
import FirmwareMailbox.Proofs.Session.Confinement
import FirmwareMailbox.Proofs.Simulation.Agreement

namespace FirmwareMailbox

/-- The caller stays who it is, whatever is done to devices and locks. -/
structure Machine.KeepsCaller {μ : Type} (M : Machine μ) : Prop where
  read : ∀ d o m, M.isPrivileged (M.read d o m).2 = M.isPrivileged m
  write : ∀ d o v m, M.isPrivileged (M.write d o v m).2 = M.isPrivileged m
  lock : ∀ p m, M.isPrivileged (M.lock p m).2 = M.isPrivileged m
  unlock : ∀ p m, M.isPrivileged (M.unlock p m) = M.isPrivileged m

/-- The request is an access to this device. -/
def Request.Reaches (d : DeviceHandle) : Request → Prop
  | .read h _ | .write h _ _ => h = d
  | _ => False

theorem Request.ToMailbox.reaches {d d' : DeviceHandle} {q : Request} (h : q.ToMailbox d)
    (hq : q.Reaches d') : d = d' := by
  cases q with
  | read | write => exact h.1.symm.trans hq
  | _ => exact hq.elim

namespace Message

variable {m : Message} {c : Config} {d : DeviceHandle} {highest : Option MessageId} {es : List Event}
  {words : List UInt32}

/-- The accesses are those of one transaction with the mailbox, which starts the firmware once. -/
def Once (m : Message) (d : DeviceHandle) (es : List Event) : Prop :=
  ∃ ss ws, es.filter Event.isAccess = (m.accesses ss ws).flatMap (Aperture.hsmp.events d) ∧
    (m.accesses ss ws).filter (·.address = Register.messageId) = [.store Register.messageId m.id.number]

/-- An exchange that succeeds is one whole transaction, and no reason to give up on the firmware. -/
theorem exchange_once (h : Job.Yields (m.exchange c d highest) es (.ok words)) :
    m.Once d es ∧ ⟨.disable, ()⟩ ∉ es := by
  have hsize : m.checkSize = .ok () := by
    cases hm : m.checkSize with
    | ok _ => rfl
    | error e =>
      unfold exchange at h
      rw [hm] at h
      cases (Job.yields_throw.mp h).2
  obtain ⟨hargs, hresponse⟩ := checkSize_eq_ok hsize
  rcases yields_exchange h with ⟨e, -, he, -⟩ | ⟨he, -⟩ | ⟨e, he, -⟩ | ⟨fs, rfl, hf⟩
  · cases he
  · cases he
  · cases he
  obtain ⟨ss, ws, hA, ⟨hr, rfl⟩ | ⟨e, he, -⟩⟩ := yields_converse hf
  case inr => cases he
  -- the status was set, so nothing follows the transaction
  have hlast : lastStatus ss ≠ Status.notReady := by
    rw [(outcome_eq_ok_iff.mp hr.symm).1]
    decide
  rw [if_neg hlast, List.append_nil]
  refine ⟨⟨ss, ws, ?_, filter_messageId hA hargs hresponse⟩, ?_⟩
  · rw [← filter_isAccess_transaction m c]
    simp [Event.isAccess]
  · simpa using disable_not_mem (.inl rfl)

end Message

namespace Session

/-- A send to every socket is a loop of deliveries. -/
theorem deliverAll_eq (s : Session) (inv : Inventory) (m : Message) : s.deliverAll inv m =
    (List.range inv.topology.socketCount).mapM (s.deliver inv · m) >>= fun _ => pure () := by
  have hfrom : ∀ n i, s.deliverFrom inv m i n =
      (List.range' i n).mapM (s.deliver inv · m) >>= fun _ => pure () := by
    intro n
    induction n with
    | zero => intro i; simp [deliverFrom]
    | succ n ih => intro i; simp [deliverFrom, ih, List.range'_succ]
  rw [deliverAll, hfrom, List.range_eq_range']

end Session

namespace World

open Series

variable {μ α : Type} {M : Machine μ} {s : Session} {inv : Inventory} {m : Message} {w u : World μ}
  {es : List Event} {i n : Nat}

/-! ## Up to the first failure -/

/-- What a send to every socket comes to, in terms of the deliveries to sockets 0, 1 and so on. -/
structure FansOut (M : Machine μ) (s : Session) (inv : Inventory) (m : Message) (w : World μ) : Prop where
  ok_iff : (World.run M (s.deliverAll inv m) w).1 = .ok () ↔
    Succeeds M (s.deliver inv · m) w inv.topology.socketCount
  /-- With no failure, every socket has had its delivery, in order. -/
  whole : Succeeds M (s.deliver inv · m) w inv.topology.socketCount →
    Runs M (s.deliverAll inv m) w (Series.trace M (s.deliver inv · m) w inv.topology.socketCount) (.ok ())
      (Series.world M (s.deliver inv · m) w inv.topology.socketCount)
  /-- The first failure is the last that happens, and its error is the result. -/
  stops : ∀ k < inv.topology.socketCount, ∀ e, FailsAt M (s.deliver inv · m) w k e →
    Runs M (s.deliverAll inv m) w (Series.trace M (s.deliver inv · m) w (k + 1)) (.error e)
      (Series.world M (s.deliver inv · m) w (k + 1))
  /-- Each delivery goes to the mailbox of its own socket. -/
  confined : ∀ i, inv.topology.InTurn [i] (Series.events M (s.deliver inv · m) w i)
  /-- A delivery that succeeds sends the message once. -/
  once : ∀ i words, Series.result M (s.deliver inv · m) w i = .ok words →
    ∃ tile, inv.topology.tiles[4 * i]? = some tile ∧
      m.Once tile.handle (Series.events M (s.deliver inv · m) w i)
  /-- The devices that only sockets above `k` have are not accessed in the deliveries up to `k`. -/
  spared : ∀ k, ∀ x ∈ Series.trace M (s.deliver inv · m) w (k + 1), ∀ y ∈ inv.topology.tiles,
    k < y.socket → (∀ z ∈ inv.topology.tiles, z.handle = y.handle → z.socket = y.socket) →
      ¬ x.request.Reaches y.handle

theorem runs_deliver_ok {words : List UInt32} (h : Runs M (s.deliver inv i m) w es (.ok words) u) :
    ∃ tile, inv.topology.tiles[4 * i]? = some tile ∧ m.Once tile.handle es ∧ ⟨.disable, ()⟩ ∉ es := by
  obtain ⟨tile, htile, hx⟩ := runs_lift_bind_ok.mp h
  exact ⟨tile, Topology.tile_of_mailboxTile htile, Message.exchange_once hx.yields⟩

theorem runs_deliverAll_ok (h : Succeeds M (s.deliver inv · m) w inv.topology.socketCount) :
    Runs M (s.deliverAll inv m) w (Series.trace M (s.deliver inv · m) w inv.topology.socketCount) (.ok ())
      (Series.world M (s.deliver inv · m) w inv.topology.socketCount) := by
  obtain ⟨words, hwords⟩ := h.exists_values
  rw [Session.deliverAll_eq]
  exact runs_bind_ok.mpr ⟨_, [], _, _, (List.append_nil _).symm, runs_mapM_ok hwords, runs_pure.mpr ⟨rfl, rfl, rfl⟩⟩

theorem runs_deliverAll_error {k : Nat} {e : Error} (hk : k < inv.topology.socketCount)
    (h : FailsAt M (s.deliver inv · m) w k e) :
    Runs M (s.deliverAll inv m) w (Series.trace M (s.deliver inv · m) w (k + 1)) (.error e)
      (Series.world M (s.deliver inv · m) w (k + 1)) := by
  rw [Session.deliverAll_eq]
  exact runs_bind.mpr (.inl ⟨e, rfl, runs_mapM_error hk h⟩)

theorem inTurn_delivered (i : Nat) : inv.topology.InTurn [i] (Series.events M (s.deliver inv · m) w i) := by
  have hrun : Runs M (s.deliver inv i m) _ _ _ _ := Series.runs (M := M) (f := (s.deliver inv · m)) (w := w) i
  exact inTurn_deliver hrun.yields []

theorem fansOut (hS : inv.Sound) (s : Session) (m : Message) (w : World μ) : FansOut M s inv m w := by
  refine ⟨⟨fun hok => ?_, fun hs => by rw [(runs_deliverAll_ok hs).run]⟩, runs_deliverAll_ok,
    fun k hk e => runs_deliverAll_error hk, inTurn_delivered, fun i words hok => ?_,
    fun k x hx y hy hky hown hreach => ?_⟩
  · rcases succeeds_or_fails (M := M) (f := (s.deliver inv · m)) (w := w) inv.topology.socketCount with
      hs | ⟨k, hk, e, hfail⟩
    · exact hs
    · rw [(runs_deliverAll_error hk hfail).run] at hok
      cases hok
  · obtain ⟨tile, htile, honce, -⟩ := runs_deliver_ok (hok ▸ Series.runs (M := M) (w := w) i)
    exact ⟨tile, htile, honce⟩
  · -- each access is one to the mailbox tile of a socket up to `k`, and that tile is not `y`
    obtain ⟨i, hi, hx⟩ := List.mem_flatMap.mp hx
    obtain ⟨j, hj, tile, htile, hto⟩ := (inTurn_delivered i).goes hx
    obtain rfl := List.mem_singleton.mp hj
    have hle : j ≤ k := Nat.lt_succ_iff.mp (List.mem_range.mp hi)
    have hsocket : tile.socket = 4 * j / 4 := (hS.arranged.placed _ _ htile).2
    have hsame : tile.socket = y.socket := hown tile (List.mem_of_getElem? htile) (hto.reaches hreach)
    omega

/-! ## Through the gate once, or for each socket -/

/-- The gate stands open for the message, and behind it is this inventory. -/
structure Open (M : Machine μ) (inv : Inventory) (id : MessageId) (w : World μ) : Prop where
  privileged : M.isPrivileged w.machine = true
  trusting : w.memory.disabled = false
  known : w.memory.inventory = some inv
  permitted : inv.capabilities.require id = .ok ()

/-- The questions of an open gate. -/
def passing (inv : Inventory) : List Event :=
  [⟨.isPrivileged, true⟩, ⟨.isDisabled, false⟩, ⟨.recall, some inv⟩]

theorem Open.gate {id : MessageId} (h : Open M inv id w) (s : Session) :
    Runs M (s.gate (some id)) w (passing inv) (.ok inv) w := by
  have hrun := runs M (s.gate (some id)) w
  generalize transcript M (s.gate (some id)) w = es at hrun
  generalize (World.run M (s.gate (some id)) w).1 = r, (World.run M (s.gate (some id)) w).2 = w' at hrun
  have hpass := Session.runs_gate hrun
  cases hpass with
  | denied hp => rw [h.privileged] at hp; cases hp
  | disabled _ hd => rw [h.trusting] at hd; cases hd
  | learned _ _ hn => rw [h.known] at hn; cases hn
  | failed _ _ hn => rw [h.known] at hn; cases hn
  | known _ _ hi =>
    rw [h.known] at hi
    cases hi
    simpa [Session.letPass, h.permitted, Except.map, passing] using hrun

/-- A gate that lets a process pass that knows its machine is open. -/
theorem open_of_gate {id : MessageId} {inv' : Inventory} (hi : w.memory.inventory = some inv)
    (h : Runs M (s.gate (some id)) w es (.ok inv') u) : Open M inv id w := by
  generalize hr : (Except.ok inv' : Except Error Inventory) = r at h
  cases Session.runs_gate h with
  | denied => cases hr
  | disabled => cases hr
  | learned _ _ hn => rw [hi] at hn; cases hn
  | failed => cases hr
  | known hp hd hi' =>
    rw [hi] at hi'
    cases hi'
    cases hm : inv.capabilities.require id with
    | ok _ => exact ⟨hp, hd, hi, hm⟩
    | error e =>
      rw [Session.letPass, hm] at hr
      cases hr

theorem privileged_exchange (hM : M.KeepsCaller) (c : Config) (d : DeviceHandle) (m : Message)
    (highest : Option MessageId) :
    Conducts M (fun w _ w' => M.isPrivileged w'.machine = M.isPrivileged w.machine)
      (m.exchange c d highest).run := by
  refine (Message.exchange_only d c m highest).conducts ⟨fun _ => rfl, fun h h' => h'.trans h⟩ ?_
  intro q w hq
  cases q with
  | read => exact hM.read ..
  | write => exact hM.write ..
  | lock => exact hM.lock ..
  | unlock => exact hM.unlock ..
  | _ => first | rfl | cases hq

/-- A delivery that succeeds leaves the gate open. -/
theorem Open.deliver {id : MessageId} {words : List UInt32} (hM : M.KeepsCaller) (h : Open M inv id w)
    (hd : Runs M (s.deliver inv i m) w es (.ok words) u) : Open M inv id u := by
  obtain ⟨tile, -, hx⟩ := runs_lift_bind_ok.mp hd
  refine ⟨?_, ?_, (inventory_deliver hd).trans h.known, h.permitted⟩
  · rw [(privileged_exchange hM _ _ _ _).runs hx, h.privileged]
  · refine Bool.eq_false_iff.mpr fun hu => ?_
    rw [hd.disabled, h.trusting] at hu
    exact (Message.exchange_once hx.yields).2 (hu.resolve_left Bool.false_ne_true)

/-- With the gate open, an exchange is a delivery. -/
theorem Open.exchange {r : Except Error (List UInt32)} (h : Open M inv m.id w)
    (hd : Runs M (s.deliver inv i m) w es r u) : Runs M (s.exchange i m) w (passing inv ++ es) r u :=
  runs_bind.mpr (.inr ⟨_, _, _, _, rfl, h.gate s, hd⟩)

/-- The events but for the questions of gates and exchanges. -/
def deeds (es : List Event) : List Event := es.filter fun x => !x.request.isQuestion

@[simp] theorem deeds_append (es fs : List Event) : deeds (es ++ fs) = deeds es ++ deeds fs :=
  List.filter_append ..

@[simp] theorem deeds_passing (inv : Inventory) : deeds (passing inv) = [] := rfl

/-- With the gate open, it makes no difference to pass it for each socket. -/
theorem runs_each (hM : M.KeepsCaller) (hw : Open M inv m.id w) :
    ∃ es fs r u, Runs M (s.deliverFrom inv m i n) w es r u ∧
      Runs M ((List.range' i n).forM fun k => s.exchange k m >>= fun _ => pure ()) w fs r u ∧
      deeds es = deeds fs := by
  induction n generalizing i w with
  | zero => exact ⟨[], [], .ok (), w, runs_pure.mpr ⟨rfl, rfl, rfl⟩, runs_pure.mpr ⟨rfl, rfl, rfl⟩, rfl⟩
  | succ n ih =>
    have hd := runs M (s.deliver inv i m) w
    generalize transcript M (s.deliver inv i m) w = ds at hd
    generalize (World.run M (s.deliver inv i m) w).1 = r, (World.run M (s.deliver inv i m) w).2 = v at hd
    have hx := hw.exchange hd
    rw [List.range'_succ, List.forM]
    cases r with
    | error e =>
      refine ⟨ds, passing inv ++ ds, .error e, v, runs_bind.mpr (.inl ⟨e, rfl, hd⟩), ?_, by simp⟩
      exact runs_bind.mpr (.inl ⟨e, rfl, runs_bind.mpr (.inl ⟨e, rfl, hx⟩)⟩)
    | ok words =>
      obtain ⟨es, fs, r, u, hes, hfs, hsame⟩ := ih (i := i + 1) (hw.deliver hM hd)
      have hdone : Runs M (s.exchange i m >>= fun _ => pure ()) w (passing inv ++ ds) (.ok ()) v :=
        runs_bind_ok.mpr ⟨_, [], words, v, (List.append_nil _).symm, hx, runs_pure.mpr ⟨rfl, rfl, rfl⟩⟩
      refine ⟨ds ++ es, passing inv ++ ds ++ fs, r, u, runs_bind.mpr (.inr ⟨ds, es, words, v, rfl, hd, hes⟩),
        runs_bind.mpr (.inr ⟨_, fs, (), v, rfl, hdone, hfs⟩), ?_⟩
      simp [hsame]

/-- So it makes none for a process that knows its machine, whether the gate is open or not. -/
theorem runs_gate_each (hM : M.KeepsCaller) (hi : w.memory.inventory = some inv)
    (hn : 0 < inv.topology.socketCount) (s : Session) (m : Message) :
    ∃ es fs r u, Runs M (s.gate (some m.id) >>= fun inv => s.deliverAll inv m) w es r u ∧
      Runs M ((List.range inv.topology.socketCount).forM fun k => s.exchange k m >>= fun _ => pure ()) w fs r u ∧
      deeds es = deeds fs := by
  have hgate := runs M (s.gate (some m.id)) w
  generalize transcript M (s.gate (some m.id)) w = gs at hgate
  generalize (World.run M (s.gate (some m.id)) w).1 = r, (World.run M (s.gate (some m.id)) w).2 = v at hgate
  cases r with
  | error e =>
    -- both stop at the first gate, since there is a first socket
    obtain ⟨n, hn⟩ := Nat.exists_eq_succ_of_ne_zero (Nat.ne_of_gt hn)
    have hx : Runs M (s.exchange 0 m) w gs (.error e) v := runs_bind.mpr (.inl ⟨e, rfl, hgate⟩)
    refine ⟨gs, gs, .error e, v, runs_bind.mpr (.inl ⟨e, rfl, hgate⟩), ?_, rfl⟩
    rw [hn, List.range_eq_range', List.range'_succ, List.forM]
    exact runs_bind.mpr (.inl ⟨e, rfl, runs_bind.mpr (.inl ⟨e, rfl, hx⟩)⟩)
  | ok inv' =>
    have hopen := open_of_gate hi hgate
    obtain ⟨es, fs, r, u, hes, hfs, hsame⟩ :=
      runs_each (s := s) (i := 0) (n := inv.topology.socketCount) hM hopen
    refine ⟨_, fs, r, u, runs_bind.mpr (.inr ⟨_, es, inv, w, rfl, hopen.gate s, hes⟩), ?_, by simp [hsame]⟩
    rwa [List.range_eq_range']

/-- In a process that knows its machine, whatever it has done before: a message for every socket goes to
    one socket after the other up to the first failure. To set the boost limit of the system is to set it
    for each socket in turn up to the first failure: with the same result, in the same world, and with the
    same events but for the questions whether the gate may be passed. -/
theorem setters_fan_out_in_order (hM : M.KeepsCaller) (s : Session) (m₀ : μ) (moves : List (Move μ))
    (inv : Inventory) (hi : (after M moves ⟨m₀, {}⟩).memory.inventory = some inv) :
    (∀ (m : Message) (w : World μ), FansOut M s inv m w) ∧
    ∀ mhz : UInt32,
      let w := after M moves ⟨m₀, {}⟩
      let each : Job Unit := (List.range inv.topology.socketCount).forM fun socket => s.setSocketBoost socket mhz
      World.run M (s.setSystemBoost mhz) w = World.run M each w ∧
        deeds (transcript M (s.setSystemBoost mhz) w) = deeds (transcript M each w) := by
  have hS : inv.Sound := sound_moves moves ⟨m₀, {}⟩ (fun _ h => by cases h) inv hi
  have hn : 0 < inv.topology.socketCount := by
    rw [Topology.socketCount, Register.tilesPerSocket]
    rcases hS.arranged.length with h | h <;> omega
  refine ⟨fansOut hS s, fun mhz => ?_⟩
  obtain ⟨es, fs, r, u, hsystem, heach, hsame⟩ := runs_gate_each hM hi hn s (Session.boostMessage mhz)
  exact ⟨hsystem.run.trans heach.run.symm, by rw [← hsystem.transcript, ← heach.transcript] at hsame; exact hsame⟩

theorem keepsCaller_machine : Simulation.machine.KeepsCaller where
  read d o m := by
    show (Simulation.State.read d o m).2.privileged = m.privileged
    unfold Simulation.State.read Simulation.State.readRegister
    repeat' split
    all_goals rfl
  write d o v m := by
    show (Simulation.State.write d o v m).2.privileged = m.privileged
    unfold Simulation.State.write Simulation.State.writeRegister
    repeat' split
    all_goals rfl
  lock _ _ := rfl
  unlock _ _ := rfl

/-- The firmware of the second socket stops answering. -/
def hangSecond (m : Simulation.State) : Simulation.State :=
  m.updateSocket 1 fun s => { s with firmware := { s.firmware with stalled := true } }

theorem hung_second_boosted_each : Simulation.machine.KeepsCaller ∧
    let s : Session := ⟨Simulation.config⟩
    let w := after Simulation.machine [.step s (.gate none), .change hangSecond] ⟨Simulation.sound, {}⟩
    ∃ inv, w.memory.inventory = some inv ∧ inv.topology = Topology.crossedTable ∧
      World.run Simulation.machine (s.setSystemBoost 2800) w =
        World.run Simulation.machine ([0, 1].forM fun socket => s.setSocketBoost socket 2800) w := by
  obtain ⟨firmware, hdoor⟩ := Simulation.sound_healthy.door (s := ⟨Simulation.config⟩) rfl
  obtain ⟨m, mem, hgate, hknows, -⟩ := hdoor none
  have hworld : (World.run Simulation.machine ((Step.gate none).perform ⟨Simulation.config⟩)
      ⟨Simulation.sound, {}⟩).2 = ⟨m, mem⟩ := by
    rw [Step.perform, map_eq_pure_bind, run_bind_ok hgate]
    rfl
  have hi := (congrArg (·.memory.inventory) hworld).trans hknows.inventory
  obtain ⟨-, hboost⟩ := setters_fan_out_in_order keepsCaller_machine ⟨Simulation.config⟩ Simulation.sound
    [.step _ (.gate none), .change hangSecond] _ hi
  obtain ⟨hrun, -⟩ := hboost 2800
  have hsockets : List.range Topology.crossedTable.socketCount = [0, 1] := by decide
  dsimp only at hrun
  rw [hsockets] at hrun
  exact ⟨keepsCaller_machine, _, hi, rfl, hrun⟩

end World

end FirmwareMailbox
