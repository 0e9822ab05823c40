/-
  FirmwareMailbox.Proofs.Simulation.Verdict — the ways an operation may end, told in advance.

  On a machine in good health, whose firmware is of one version throughout, an operation ends in one
  of three ways: the version does not have the message, the driver refuses the arguments, or it works.
  `Operation.message?` and `Operation.Misused` say which, from the version, the tiles, the CPUs and the
  arguments alone; a result that keeps to it is a `Verdict`. Behind the gate only the last two are left
  (`Ends`), and each delivery is served.
-/

import FirmwareMailbox.Proofs.Session.Errand
import FirmwareMailbox.Proofs.Simulation.Health

namespace FirmwareMailbox

/-- The arguments are refused if they are misused; otherwise there is an answer, such as `W` says. -/
structure Ends {α : Type} (misused : Prop) (W : α → Prop) (r : Except Error α) : Prop where
  refused : misused → ∃ cause, r = .error (.invalidArgument cause)
  done : ¬ misused → ∃ a, r = .ok a ∧ W a

/-- How what sends this message ends with firmware of version `v`: if the version does not have the
    message, it says so, and else the arguments decide. -/
structure Verdict {α : Type} (v : UInt32) (m? : Option MessageId) (misused : Prop) (W : α → Prop)
    (r : Except Error α) : Prop where
  old : ∀ id, m? = some id → v < id.minVersion → r = .error (.versionMismatch id id.minVersion v)
  ends : (∀ id, m? = some id → id.minVersion ≤ v) → Ends misused W r

/-! ## The three ways to end -/

section

variable {α β : Type} {v : UInt32} {m? : Option MessageId} {P P' : Prop} {W : α → Prop} {V : β → Prop}

theorem Ends.of_ok {a : α} (h : Ends P W (.ok a)) : ¬ P ∧ W a := by
  have hP : ¬ P := fun hP => by
    obtain ⟨cause, he⟩ := h.refused hP
    cases he
  obtain ⟨b, hb, hW⟩ := h.done hP
  cases hb
  exact ⟨hP, hW⟩

theorem Ends.of_error {e : Error} (h : Ends P W (.error e)) : P ∧ ∃ cause, e = .invalidArgument cause := by
  by_cases hP : P
  · obtain ⟨cause, he⟩ := h.refused hP
    cases he
    exact ⟨hP, cause, rfl⟩
  · obtain ⟨b, hb, -⟩ := h.done hP
    cases hb

theorem Ends.ok {a : α} (hP : ¬ P) (hW : W a) : Ends P W (.ok a) :=
  ⟨fun h => absurd h hP, fun _ => ⟨a, rfl, hW⟩⟩

theorem Ends.error {cause : Misuse} (hP : P) : Ends P W (.error (.invalidArgument cause)) :=
  ⟨fun _ => ⟨cause, rfl⟩, fun h => absurd hP h⟩

theorem Ends.congr {r : Except Error α} (h : Ends P W r) (hP : P ↔ P') : Ends P' W r :=
  ⟨fun h' => h.refused (hP.mpr h'), fun h' => h.done (mt hP.mp h')⟩

theorem Verdict.of_ok {a : α} (h : Verdict v m? P W (.ok a)) :
    (∀ id, m? = some id → id.minVersion ≤ v) ∧ ¬ P ∧ W a := by
  have hv : ∀ id, m? = some id → id.minVersion ≤ v := fun id hid =>
    UInt32.not_lt.mp fun hlt => by cases h.old id hid hlt
  exact ⟨hv, (h.ends hv).of_ok⟩

theorem Verdict.ok {a : α} (hv : ∀ id, m? = some id → id.minVersion ≤ v) (hP : ¬ P) (hW : W a) :
    Verdict v m? P W (.ok a) :=
  ⟨fun id hid hlt => absurd (hv id hid) (UInt32.not_le.mpr hlt), fun _ => .ok hP hW⟩

/-- An error ends whatever goes on from there. -/
theorem Verdict.error {e : Error} (h : Verdict v m? P W (.error e)) : Verdict v m? P V (.error e) := by
  refine ⟨fun id hid hlt => ?_, fun hv => ?_⟩
  · cases h.old id hid hlt
    rfl
  · obtain ⟨hP, cause, rfl⟩ := (h.ends hv).of_error
    exact .error hP

/-- Which message it is does not count if the version has it. -/
theorem Verdict.switch {n? : Option MessageId} {r : Except Error α} (h : Verdict v m? P W r)
    (hm : ∀ id, m? = some id → id.minVersion ≤ v) (hn : ∀ id, n? = some id → id.minVersion ≤ v) :
    Verdict v n? P W r :=
  ⟨fun id hid hlt => absurd (hn id hid) (UInt32.not_le.mpr hlt), fun _ => h.ends hm⟩

end

namespace Simulation.Site

/-- A word of 16 bits is the same in 16 bits. -/
theorem toUInt16_toUInt32 {w : UInt32} (h : w ≤ 0xFFFF) : w.toUInt16.toUInt32 = w := by
  refine UInt32.toNat_inj.mp ?_
  have hle : w.toNat ≤ 65535 := UInt32.le_iff_toNat_le.mp h
  rw [UInt16.toNat_toUInt32, UInt32.toNat_toUInt16]
  omega

variable {α β : Type} {S : Site} {s : Session} {inv : Inventory} {mem : Memory}

/-- The session and the inventory are those of the site. -/
structure Describes (S : Site) (s : Session) (inv : Inventory) : Prop where
  config : s.config = S.config
  topology : inv.topology = S.topology
  cpus : inv.cpus = S.cpus
  version : inv.capabilities.interfaceVersion = S.version

/-! ## Behind the gate -/

namespace Serves

/-- What follows a part that ends well decides the rest. -/
theorem andThen {P : Prop} {W : α → Prop} {V : β → Prop} {j : Job α} {f : α → Job β}
    (hj : S.Serves mem j (Ends P W)) (hf : ∀ a, ¬ P → W a → S.Serves mem (f a) (Ends P V)) :
    S.Serves mem (j >>= f) (Ends P V) :=
  hj.bind (fun a ha => hf a ha.of_ok.1 ha.of_ok.2) fun e he => by
    obtain ⟨hP, cause, rfl⟩ := he.of_error
    exact .error hP

/-- A delivery is served if its socket is there and the firmware takes the message. -/
theorem deliver (hd : S.Describes s inv) (hk : Knows inv mem) (n : Nat) {msg : Message} (hm : msg.Fits)
    (hid : msg.id.minVersion ≤ S.version)
    (hq : ∀ x m sk, S.topology.mailboxTile n = .ok x → S.Serving m → m.behind x.handle = some sk →
      ∃ ws f, sk.firmware.perform (msg.args.headD 0) msg.id = .ok (ws, f)) :
    S.Serves mem (s.deliver inv n msg)
      (Ends (S.topology.socketCount ≤ n) (fun ws => ws.length = msg.responseLength)) := by
  unfold Session.deliver
  rw [hd.topology, hd.config]
  by_cases hn : S.topology.socketCount ≤ n
  · exact lift_error (Topology.mailboxTile_absent hn) (.error hn)
  · obtain ⟨x, hx, hok⟩ := Topology.mailboxTile_present (Nat.lt_of_not_le hn)
    refine lift_ok hok (exchange hk.working hx hm hid _ fun m sk hS hb => ?_)
    obtain ⟨ws, f, hperf⟩ := hq x m sk hok hS hb
    exact ⟨ws, f, hperf, .ok hn ((Firmware.perform_ok hperf).1.trans hm.2.symm)⟩

/-- So is a delivery to every socket. -/
theorem deliverAll (hd : S.Describes s inv) (hk : Knows inv mem) {msg : Message} (hm : msg.Fits)
    (hid : msg.id.minVersion ≤ S.version)
    (hq : ∀ f : Firmware, ∃ ws f', f.perform (msg.args.headD 0) msg.id = .ok (ws, f')) :
    S.Serves mem (s.deliverAll inv msg) (Ends False (fun _ => True)) := by
  have hfrom : ∀ n i, i + n ≤ S.topology.socketCount →
      S.Serves mem (s.deliverFrom inv msg i n) (Ends False (fun _ => True)) := by
    intro n
    induction n with
    | zero => exact fun i _ => .lift (.ok id trivial)
    | succ n ih =>
      intro i hi
      have hone := (deliver hd hk i hm hid fun _ _ sk _ _ _ => hq sk.firmware).mono
        fun _ h => h.congr (iff_of_false (by omega) id : _ ↔ False)
      exact hone.andThen fun _ _ _ => ih (i + 1) (by omega)
  unfold Session.deliverAll
  rw [hd.topology]
  exact hfrom _ 0 (by omega)

/-- What is done for a CPU is done if the CPU is one that can be named to its socket. -/
theorem forCpu {W : α → Prop} (hd : S.Describes s inv) {cpu : Nat} {k : CpuEntry → UInt16 → Job α}
    (hk : ∀ e a, S.cpus.find? cpu = some e → a.toUInt32 = e.apicId →
      S.Serves mem (k e a) (Ends (S.topology.socketCount ≤ e.socket) W)) :
    S.Serves mem (liftM (inv.cpus.get cpu) >>= fun e =>
      liftM (Session.narrowApicId cpu e.apicId) >>= fun a => k e a)
        (Ends (S.cpus.Misses S.topology cpu) W) := by
  rw [hd.cpus]
  cases S.cpus.lookup S.topology cpu with
  | absent hmisses hget => exact lift_error hget (.error hmisses)
  | wide hmisses hget hwide => exact lift_ok hget (lift_error hwide (.error hmisses))
  | @named e hf ha hget hnamed hmisses =>
    refine lift_ok hget (lift_ok hnamed ((hk e _ hf (toUInt16_toUInt32 ha)).mono fun r h => ?_))
    exact h.congr hmisses.symm

end Serves

end Simulation.Site

end FirmwareMailbox
