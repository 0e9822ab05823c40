/-
  FirmwareMailbox.Proofs.Simulation.Probing — what a negotiation that succeeded shows of a machine.

  A socket that claims to have answered where it did not leaves the argument of the test in its slot, and
  that is not the answer that the test wants (`Socket.exchange_dishonest`). So behind every mailbox that
  passed is an honest socket, and the lock was to be had (`Reached.of_negotiate`). Learning then goes the same way
  on every machine with the same core, whatever the settings and the mailboxes hold there (`relearn`).
-/

import FirmwareMailbox.Proofs.Session.GivingUp
import FirmwareMailbox.Proofs.Session.Remembering
import FirmwareMailbox.Proofs.Simulation.Kin
import FirmwareMailbox.Proofs.Topology.Lookup

namespace FirmwareMailbox

/-- The device has the mailbox of a socket. -/
def Topology.HasMailbox (t : Topology) (h : DeviceHandle) : Prop :=
  ∃ n tile, t.mailboxTile n = .ok tile ∧ tile.handle = h

namespace Simulation

/-- Where nothing was answered, the slot still holds the argument. -/
theorem Socket.exchange_dishonest {s : Socket} {m : Message} {a : UInt32} (hargs : m.args = [a])
    (hresp : m.responseLength = 1) (hf : s.firmware.forcedStatus = some Status.ok)
    {highest : Option MessageId} {polls : UInt32} {ws : List UInt32}
    (h : (s.exchange m highest polls).1 = .ok ws) : ws = [a] := by
  have hlen : m.args.length ≤ Register.slotCount := by
    rw [hargs, List.length_singleton]
    decide
  simp only [Socket.exchange] at h
  split at h
  · rename_i hnone
    obtain rfl := Except.ok.inj h
    have hstatus := Message.refusal?_eq_none_iff.mp hnone
    have hanswer : s.answer m = .error Status.ok := by rw [Socket.answer, hf]
    rw [hresp, List.range_one, List.map_singleton, Socket.started_eq, hanswer]
    split
    · rename_i hstalled
      rw [Socket.status, Socket.started_eq, if_pos hstalled, Socket.request_status hlen, Socket.awaited,
        ite_self] at hstatus
      exact absurd hstatus (by decide)
    · rw [RegisterFile.get_set, if_neg (by decide), Socket.request_slot hlen (by decide), hargs]
      rfl
  · cases h

variable {c : Config} {s : Session} {H H' : DeviceHandle → Prop} {w w' v v' u : World State} {es : List Event}
  {tile : Tile} {n : Nat}

/-- A survey changes nothing but index registers. -/
theorem survey_idle {x : Except Error (Processor × Topology × CpuTable)}
    (h : World.Runs machine Session.survey w es x w') : w.machine.Idle w'.machine := by
  have hidle : World.Composes fun (w : World State) _ w' => w.machine.Idle w'.machine :=
    ⟨fun w => .refl w.machine, State.Idle.trans⟩
  refine (Session.survey_closed (World.Conducts.closed hidle) ?_ fun devices w => ?_).runs h
  · rintro q (rfl | rfl | rfl) w
    · exact .refl w.machine
    · exact { State.Idle.refl w.machine with }
    · exact .refl w.machine
  · exact (conducts_ofDevices devices w).1

/-! ## Answers -/

/-- From here to there the process got every answer that it asked for, and the sockets that have one of these
    devices are honest. -/
structure Reached (c : Config) (H : DeviceHandle → Prop) (w w' : World State) : Prop where
  before : w.memory.disabled = false
  after : w'.memory.disabled = false
  lock : Lockable c w.machine
  core : w.machine.Kin Firmware.core w'.machine
  honest : w.machine.Honest H

namespace Reached

theorem trans (h : Reached c H w v) (h' : Reached c H' v w') : Reached c (fun d => H d ∨ H' d) w w' where
  before := h.before
  after := h'.after
  lock := h.lock
  core := h.core.trans h'.core
  honest k d x hk hd hx := hk.elim (fun hk => h.honest k d x hk hd hx)
    fun hk => h.core.symm.honest Firmware.core_view h'.honest k d x hk hd hx

theorem mono (h : Reached c H w w') (hH : ∀ d, H' d → H d) : Reached c H' w w' :=
  { h with honest := fun k d x hk => h.honest k d x (hH k hk) }

/-- Who got an answer has not given up, before or after, and the lock was to be had. -/
theorem of_exchange {d : DeviceHandle} {m : Message} (hm : m.Fits) {highest : Option MessageId}
    {ws : List UInt32} (h : World.Runs machine (m.exchange c d highest) w es (.ok ws) w') :
    Reached c (fun _ => False) w w' := by
  have hquiet : ⟨.disable, ()⟩ ∉ es := by
    intro hmem
    have htimeout := (Message.yields_exchange_disable (h.plain machine_plain) h.yields).mp hmem
    cases htimeout
  have hopen : w.memory.disabled = false ∧ Lockable c w.machine := by
    obtain ⟨_, -, hrest⟩ := World.runs_lift_bind_ok.mp h
    obtain ⟨gs, rfl, hrun⟩ := World.runs_ask_bind.mp hrest
    cases hdis : w.memory.disabled with
    | true =>
      simp only [World.answer, hdis, if_true] at hrun
      obtain ⟨_, _, _, _, -, hthrow, -⟩ := World.runs_bind_ok.mp hrun
      cases (World.runs_throw.mp hthrow).2.1
    | false =>
      simp only [World.answer, hdis, Bool.false_eq_true, if_false] at hrun
      rcases World.runs_locked.mp hrun with ⟨e, n, -, he, -⟩ | ⟨fs, n, v, hlock, -⟩
      · cases he
      · exact ⟨rfl, congrArg Prod.fst hlock⟩
  refine ⟨hopen.1, ?_, hopen.2, ?_, fun _ _ _ hno => hno.elim⟩
  · rw [Bool.eq_false_iff]
    intro hgone
    rcases h.disabled.mp hgone with hbefore | hmem
    · rw [hopen.1] at hbefore
      cases hbefore
    · exact hquiet hmem
  · exact ((Keeping.exchange Firmware.core_view d hm (Firmware.core_hides m.id) highest).runs h hopen.2).2

theorem of_askWord {m : Message} (hm : { m with responseLength := 1 : Message }.Fits) {x : UInt32}
    (h : World.Runs machine (Capabilities.askWord c tile m) w es (.ok x) w') :
    Reached c (fun _ => False) w w' := by
  obtain ⟨xs, ys, ws, v, rfl, hx, hword⟩ := World.runs_bind_ok.mp h
  obtain ⟨-, -, rfl⟩ := World.runs_lift.mp hword
  exact of_exchange hm hx

/-- Who passed the test answered it. -/
theorem of_testSocket (h : World.Runs machine (Capabilities.testSocket c n tile) w es (.ok ()) w') :
    Reached c (· = tile.handle) w w' := by
  obtain ⟨fs, gs, answer, u, rfl, hask, hcheck⟩ := World.runs_bind_ok.mp h
  obtain ⟨xs, ys, ws, v, rfl, hx, hword⟩ := World.runs_bind_ok.mp hask
  obtain ⟨-, hanswer, rfl⟩ := World.runs_lift.mp hword
  have hfits : Message.Fits ⟨.test, [Capabilities.testArgument], 1⟩ := ⟨rfl, rfl⟩
  have hreached := of_exchange hfits hx
  have hpassed : w' = u ∧ answer = Capabilities.testArgument + 1 := by
    split at hcheck
    · cases (World.runs_throw.mp hcheck).2.1
    · rename_i heq
      exact ⟨(World.runs_pure.mp hcheck).2.2, by simpa using heq⟩
  obtain ⟨rfl, rfl⟩ := hpassed
  refine { hreached with honest := ?_ }
  rintro k d s rfl hd hs hforced
  obtain ⟨i, hr⟩ := run_exchange none hd hs hreached.lock hreached.before hfits.sizes.1 hfits.sizes.2
  have hres := congrArg Prod.fst (hx.run.symm.trans hr)
  obtain rfl := Socket.exchange_dishonest rfl rfl hforced hres.symm
  exact absurd (Except.ok.inj hanswer) (by decide)

theorem of_readVersions {x : FirmwareVersion × UInt32}
    (h : World.Runs machine (Capabilities.readVersions c tile) w es (.ok x) w') :
    Reached c (fun _ => False) w w' := by
  obtain ⟨fs, gs, firmware, u, rfl, hfirmware, hrest⟩ := World.runs_bind_ok.mp h
  obtain ⟨ks, ls, interface, v, rfl, hinterface, hpure⟩ := World.runs_bind_ok.mp hrest
  obtain ⟨-, -, rfl⟩ := World.runs_pure.mp hpure
  exact ((of_askWord ⟨rfl, rfl⟩ hfirmware).trans (of_askWord ⟨rfl, rfl⟩ hinterface)).mono fun _ => Or.inl

variable {t : Topology}

/-- By induction on the number of sockets to come. -/
theorem of_testSockets {i : Nat} (hw : Reached c H v w)
    (h : World.Runs machine (Capabilities.testSockets c t i n) w es (.ok ()) w') :
    Reached c (fun d => H d ∨ ∃ k tile, i ≤ k ∧ k < i + n ∧ t.mailboxTile k = .ok tile ∧ tile.handle = d) v w' := by
  induction n generalizing i w es H with
  | zero =>
    obtain ⟨-, -, rfl⟩ := World.runs_pure.mp h
    exact hw.mono fun d hd => hd.resolve_right fun ⟨k, _, hik, hk, _⟩ => by omega
  | succ n ih =>
    obtain ⟨tile, htile, hrest⟩ := World.runs_lift_bind_ok.mp h
    obtain ⟨fs, gs, _, u, rfl, htest, hmore⟩ := World.runs_bind_ok.mp hrest
    refine (ih (hw.trans (of_testSocket htest)) hmore).mono fun d hd => ?_
    rcases hd with hd | ⟨k, x, hik, hk, hx, hd⟩
    · exact Or.inl (Or.inl hd)
    · by_cases hfirst : k = i
      · subst hfirst
        obtain rfl := Except.ok.inj (htile.symm.trans hx)
        exact Or.inl (Or.inr hd.symm)
      · exact Or.inr ⟨k, x, by omega, by omega, hx, hd⟩

/-- A negotiation that succeeded had an answer from every mailbox. -/
theorem of_negotiate {caps : Capabilities}
    (h : World.Runs machine (Capabilities.negotiate c t) w es (.ok caps) w') : Reached c t.HasMailbox w w' := by
  unfold Capabilities.negotiate at h
  split at h
  · cases (World.runs_throw.mp h).2.1
  rename_i n hcount
  obtain ⟨tile, htile, hfirst⟩ := World.runs_lift_bind_ok.mp h
  obtain ⟨_, _, _, u, rfl, htest, hversions⟩ := World.runs_bind_ok.mp hfirst
  obtain ⟨_, _, ⟨firmware, interface⟩, v, rfl, hread, hothers⟩ := World.runs_bind_ok.mp hversions
  obtain ⟨_, _, _, v', rfl, htests, hend⟩ := World.runs_bind_ok.mp hothers
  have hw' : w' = v' := by
    dsimp only at hend
    split at hend
    · obtain ⟨_, _, _, _, -, hthrow, -⟩ := World.runs_bind_ok.mp hend
      cases (World.runs_throw.mp hthrow).2.1
    · exact (World.runs_pure.mp hend).2.2
  rw [hw']
  refine (of_testSockets ((of_testSocket htest).trans (of_readVersions hread)) htests).mono fun d hd => ?_
  obtain ⟨k, x, hx, hd⟩ := hd
  have hk : k < t.socketCount := by
    by_contra hno
    rw [Topology.mailboxTile_absent (Nat.le_of_not_lt hno)] at hx
    cases hx
  by_cases hfirst : k = 0
  · subst hfirst
    obtain rfl := Except.ok.inj (htile.symm.trans hx)
    exact Or.inl (Or.inl hd.symm)
  · exact Or.inr ⟨k, x, by omega, by omega, hx, hd⟩

/-- Learning that succeeded shows that there was an answer from every mailbox. -/
theorem of_learn {inv : Inventory} (h : World.Runs machine s.learn v es (.ok inv) u) :
    Reached s.config inv.topology.HasMailbox v u := by
  obtain ⟨ks, ns, v', -, hs, hc⟩ := Session.runs_learn_ok.mp h
  have hidle := survey_idle hs
  have hreached := of_negotiate hc
  refine ⟨?_, hreached.after, hreached.lock.idle hidle.symm, hidle.kin.trans hreached.core,
    hidle.kin.symm.honest Firmware.core_view hreached.honest⟩
  rw [← hs.memory Session.survey_only]
  exact hreached.before

end Reached

/-! ## Learning again -/

/-- On every machine with the same core learning succeeds with the same inventory, and but for mailboxes and
    records nothing changes there. -/
theorem relearn {inv : Inventory} (h : World.Runs machine s.learn v es (.ok inv) u)
    (hk : v.machine.Kin Firmware.core w.machine) (hl : Lockable s.config w.machine)
    (hd : w.memory.disabled = false) :
    ∃ fs w', World.Runs machine s.learn w fs (.ok inv) w' ∧ w'.memory.disabled = false ∧
      Lockable s.config w'.machine ∧ w.machine.Kin Firmware.unrecorded w'.machine := by
  have hreached := Reached.of_learn h
  obtain ⟨ks, ns, v', -, hs, hc⟩ := Session.runs_learn_ok.mp h
  have hpaired : Paired Firmware.core inv.topology.HasMailbox s.config v w :=
    ⟨hk, ⟨hreached.lock, hl⟩, hreached.honest, hreached.before.trans hd.symm⟩
  obtain ⟨w₁, hs', hpaired₁⟩ := (Concurs.survey Firmware.core_view).runs hs hpaired
  have hnegotiate : Concurs Firmware.core inv.topology.HasMailbox s.config
      (Capabilities.negotiate s.config inv.topology).run :=
    .negotiate Firmware.core_view (fun _ => Firmware.core_shows) fun n tile htile => ⟨n, tile, htile, rfl⟩
  obtain ⟨w₂, hc', hpaired₂⟩ := hnegotiate.runs hc hpaired₁
  -- the probes change nothing but records and mailboxes
  have hidle := survey_idle hs'
  obtain ⟨hl₂, hkin₂⟩ := (Keeping.negotiate Firmware.unrecorded_view (fun _ => Firmware.unrecorded_hides)
    inv.topology).runs hc' (hl.idle hidle)
  exact ⟨_, w₂, Session.runs_learn_ok.mpr ⟨_, _, w₁, rfl, hs', hc'⟩, hpaired₂.disabled.symm.trans hreached.after,
    hl₂, hidle.kin.trans hkin₂⟩

end Simulation

end FirmwareMailbox
