/-
  FirmwareMailbox.Proofs.Simulation.Interleaving — processes that share a simulated machine see each
  other only as if they had taken turns.

  Every step of a process is matched by none or one of the turns: one for each thing that a step can be,
  put together in `Together.step`. So is a whole schedule (`Together.run`).
-/

import FirmwareMailbox.Proofs.Simulation.Standing

namespace FirmwareMailbox

namespace Simulation

/-! ## One step -/

variable {ι : Type} [DecidableEq ι] {c : Crew ι State} {t : Turns ι State} {j : ι}
variable {m₀ : State} {devices : List PciDevice} {r : Except Error Topology}

/-- A process begins a task. -/
theorem Together.begins (h : Together m₀ devices r c t)
    (hr : Looks m₀ devices (Topology.ofDevices devices).run r) (hn : (c.process j).doing = .nothing) :
    Together m₀ devices r (c.step machine (Topology.ofDevices devices) j) t := by
  have hj := h.stands j
  unfold Stands at hj
  rw [hn] at hj
  cases hl : (c.process j).left with
  | nil => rwa [Crew.step_rest hn hl]
  | cons task rest =>
    have hleft := hj.left
    rw [hl] at hleft
    cases task with
    | discover =>
      rw [Crew.step_discover hn hl]
      refine h.of_frame (.put j _ c t) h.ports (by simpa using h.tables j) h.acquired h.idle ?_
      simp only [Stands, Crew.put_process]
      exact ⟨.of_process (Crew.put_process ..) hj.memory hleft hj.responses hj.free, Or.inl hr⟩
    | send s =>
      rw [Crew.step_send hn hl]
      refine h.of_frame (.put j _ c t) h.ports (by simpa using h.tables j) h.acquired h.idle ?_
      simp only [Stands, Crew.put_process]
      exact Or.inl ⟨.of_process (Crew.put_process ..) hj.memory hleft hj.responses hj.free, .start⟩

/-- A discovery ends. -/
theorem Together.ends_discovery (h : Together m₀ devices r c t) {x : Except Error Topology}
    (hd : (c.process j).doing = .discovering (.done x)) :
    Together m₀ devices r (c.step machine (Topology.ofDevices devices) j) t := by
  have hj := h.stands j
  unfold Stands at hj
  rw [hd] at hj
  obtain ⟨he, hl | ⟨_, _, _, hp, -⟩⟩ := hj
  · cases hl
    rw [Crew.step_table hd]
    refine h.of_frame (.put j _ c t) h.ports ?_ h.acquired h.idle ?_
    · intro y hy
      rw [Crew.put_process] at hy
      rcases List.mem_append.mp hy with hy | hy
      · exact h.tables j y hy
      · exact List.mem_singleton.mp hy
    · simp only [Stands, Crew.put_process]
      exact .of_process (Crew.put_process ..) he.memory he.left he.responses he.free
  · cases hp

/-- A discovery had a reply that changed nothing an exchange can see. -/
theorem Together.answered (h : Together m₀ devices r c t) (he : Even c t j [] []) {e : Event}
    (hl : e.request.isLocking = false) {m : State}
    {p : Program (Except Error Topology)} (hplain : m.plain = c.machine.plain)
    (hindex : ∀ h a, Asks devices h a → c.machine.Names h a → m.Names h a)
    (hp : Discovering m₀ devices (c.answered j e ⟨m, (c.process j).memory⟩ (.discovering p)) r p) :
    Together m₀ devices r (c.answered j e ⟨m, (c.process j).memory⟩ (.discovering p)) t := by
  obtain ⟨hh, ha⟩ := Crew.answered_same (i := j) (w := ⟨m, (c.process j).memory⟩) (d := .discovering p) (c := c) hl
  refine h.of_frame (.answered (fun i _ => by rw [hh]) (fun _ _ _ => hplain) hindex) ?_ (by simpa using h.tables j)
    (h.acquired.trans ha.symm) ?_ ?_
  · show m.ports = m₀.ports
    rw [← plain_ports, hplain, plain_ports, h.ports]
  · rw [hh]
    exact fun hn => (h.idle hn).trans hplain.symm
  · simp only [Stands, Crew.answered_process]
    exact ⟨.of_process (Crew.answered_process ..) he.memory he.left he.responses (by rw [hh]; exact he.free), hp⟩

/-- A discovery writes an index or looks at a register. -/
theorem Together.looks (h : Together m₀ devices r c t)
    (hd : ∀ a ∈ devices, ∀ b ∈ devices, a.handle = b.handle → a.address.bus = b.address.bus)
    {q : Request} {next : q.Reply → Program (Except Error Topology)}
    (hdoing : (c.process j).doing = .discovering (.ask q next)) :
    Together m₀ devices r (c.step machine (Topology.ofDevices devices) j) t := by
  have hj := h.stands j
  unfold Stands at hj
  rw [hdoing] at hj
  rw [Crew.step_look hdoing]
  obtain ⟨he, hl | ⟨d, a, after, hp, ha, hi, hl⟩⟩ := hj
  · cases hl with
    | @absent d a e next _ ha ho hn =>
      obtain ⟨hreply, -⟩ := write_of_ports h.ports d a
      refine h.answered he rfl (write_smnIndex_eq c.machine d a).2.1 (fun _ _ hb => ha.names_written hd hb)
        (Or.inl ?_)
      show Looks m₀ devices (next (c.machine.write d Register.smnIndex a).1) r
      rw [hreply, ho]
      exact hn
    | @look d a next after _ ha ho hn hafter =>
      obtain ⟨hreply, -⟩ := write_of_ports h.ports d a
      refine h.answered he rfl (write_smnIndex_eq c.machine d a).2.1 (fun _ _ hb => ha.names_written hd hb)
        (Or.inr ⟨d, a, after, ?_, ha, names_written h.ports ho a, hafter⟩)
      show next (c.machine.write d Register.smnIndex a).1 = _
      rw [hreply, ho, hn]
  · cases hp
    have hread := read_of_ports h.ports ha hi
    show Together m₀ devices r (c.answered j ⟨.read d Register.smnData, (c.machine.read d Register.smnData).1⟩
      ⟨(c.machine.read d Register.smnData).2, (c.process j).memory⟩
      (.discovering (after (c.machine.read d Register.smnData).1))) t
    rw [hread]
    exact h.answered he rfl rfl (fun _ _ _ hx => hx) (Or.inl hl)

section

variable {s : Sending} {x : Except Error (List UInt32)}

/-- A message that never came to the lock is done with, and has its turn now. -/
theorem Together.ends_before (h : Together m₀ devices r c t) (he : Even c t j [s] [])
    (hb : Before s (c.process j).memory (.done x)) :
    Together m₀ devices r
      (c.put j { c.process j with doing := .nothing, responses := (c.process j).responses ++ [x] })
      (t.take machine j) := by
  obtain ⟨hrun, hgrant⟩ := hb.unseen t.machine
  rw [← he.memory] at hrun hgrant
  have htake := Turns.take_next (M := machine) he.left
  rw [hrun, hgrant] at htake
  have hput : Frame devices c (c.put j { c.process j with
      doing := .nothing, responses := (c.process j).responses ++ [x] }) t t j := .put ..
  have hframe := hput.turn fun _ => by rw [htake]
  rw [htake] at hframe ⊢
  refine h.of_frame hframe h.ports (by simpa using h.tables j) h.acquired h.idle ?_
  simp only [Stands, Crew.put_process]
  refine .of_process (Crew.put_process ..) ?_ ?_ ?_ he.free
  · exact (Function.update_self ..).trans he.memory
  · exact Function.update_self ..
  · refine (Function.update_self ..).trans ?_
    rw [he.responses]
    simp

/-- A message that had its turn is done with. -/
theorem Together.ends_after (h : Together m₀ devices r c t) (he : Even c t j [] [x]) :
    Together m₀ devices r
      (c.put j { c.process j with doing := .nothing, responses := (c.process j).responses ++ [x] }) t := by
  refine h.of_frame (.put j _ c t) h.ports (by simpa using h.tables j) h.acquired h.idle ?_
  simp only [Stands, Crew.put_process]
  exact .of_process (Crew.put_process ..) he.memory he.left (by simpa using he.responses) he.free

theorem Together.ends_sending (h : Together m₀ devices r c t)
    (hd : (c.process j).doing = .sending s (.done x)) : ∃ order,
      Together m₀ devices r (c.step machine (Topology.ofDevices devices) j) (t.run machine order) := by
  have hj := h.stands j
  unfold Stands at hj
  rw [hd] at hj
  rw [Crew.step_response hd]
  rcases hj with ⟨he, hb⟩ | ⟨y, hy, he⟩ | ⟨q, y, w, hq, -⟩
  · exact ⟨[j], h.ends_before he hb⟩
  · cases hy
    exact ⟨[], h.ends_after he⟩
  · cases q <;> cases hq

end

section

variable {s : Sending} {m : State}

/-- The lock was not to be had: the message is done with. -/
theorem Together.lock_refused {e : Error} (h : Together m₀ devices r c t) (he : Even c t j [s] [])
    (hm : s.message.checkSize = .ok ()) (hmem : (c.process j).memory.disabled = false)
    (hh : c.holder = none) (hl : machine.lock s.config.lockPath c.machine = (.error e, m)) :
    Together m₀ devices r
      (c.answered j ⟨.lock s.config.lockPath, .error e⟩ ⟨m, (c.process j).memory⟩
        (.sending s (.done (.error e)))) (t.take machine j) := by
  obtain ⟨hrun, htrace⟩ := run_lockedJob (w := ⟨c.machine, (c.process j).memory⟩) hl
  obtain ⟨hplain, hmemory, hleft, hresp, hacq⟩ := he.turn hm hmem (h.idle hh) hrun
  rw [htrace] at hacq
  refine h.of_frame (.locks hl hh) ((lock_keeps hl).1.trans h.ports) (by simpa using h.tables j)
    (hacq.trans h.acquired) (fun _ => hplain) ?_
  simp only [Stands, Crew.answered_process]
  exact Or.inr (Or.inl ⟨.error e, rfl, .of_process (Crew.answered_process ..) hmemory hleft hresp he.free⟩)

/-- The lock was granted: what is left of the exchange ends as its turn did. -/
theorem Together.lock_granted (h : Together m₀ devices r c t) (he : Even c t j [s] [])
    (hm : s.message.checkSize = .ok ()) (hmem : (c.process j).memory.disabled = false)
    (hh : c.holder = none) (hl : machine.lock s.config.lockPath c.machine = (.ok (), m)) :
    Together m₀ devices r
      (c.answered j ⟨.lock s.config.lockPath, .ok ()⟩ ⟨m, (c.process j).memory⟩
        (.sending s ((s.message.converse s.config s.device s.highest).run.bind
          (unlocking s.config.lockPath)))) (t.take machine j) := by
  have hslots := (Message.checkSize_eq_ok hm).1
  have honly := converse_throughMailbox hslots s.config s.device s.highest
  have hports := (lock_keeps hl).1.trans h.ports
  obtain ⟨hrun, htrace⟩ := run_lockedJob (w := ⟨c.machine, (c.process j).memory⟩) hl
  have hrest : Program.Only Request.throughMailbox
      (World.lockedRest s.config.lockPath (s.message.converse s.config s.device s.highest) (.ok ())) :=
    (Program.Only.mono (fun _ h => h.1) honly).bind fun _ => ⟨trivial, fun _ => trivial⟩
  obtain ⟨hrunplain, -⟩ := run_plain hrest ⟨m, (c.process j).memory⟩
  generalize Program.run (World.answer machine) (World.lockedRest s.config.lockPath
    (s.message.converse s.config s.device s.highest) (.ok ())) ⟨m, (c.process j).memory⟩ = z at hrun hrunplain
  obtain ⟨y, u⟩ := z
  obtain ⟨hplain, hmemory, hleft, hresp, hacq⟩ := he.turn hm hmem (h.idle hh) hrun
  rw [htrace] at hacq
  have hgoes := Crew.answered_process j ⟨.lock s.config.lockPath, .ok ()⟩ ⟨m, (c.process j).memory⟩
    (.sending s ((s.message.converse s.config s.device s.highest).run.bind (unlocking s.config.lockPath))) c
  refine h.of_frame (.locks hl hh) hports (by simpa using h.tables j)
    (hacq.trans (congrArg (· ++ [j]) h.acquired)) (fun hn => by cases hn) ?_
  simp only [Stands, hgoes]
  refine Or.inr (Or.inr ⟨(s.message.converse s.config s.device s.highest).run, y, plainly u, rfl,
    rfl, ?_, honly, ?_, ?_, hplain.symm, hmemory.symm, ?_⟩)
  all_goals rw [hgoes]
  · exact hleft
  · have hthrough := converse_throughout hslots s.config s.device s.highest (plainly ⟨m, (c.process j).memory⟩)
    have hsame : (plainly ⟨m, (c.process j).memory⟩).machine.ports = m₀.ports := (plain_ports m).trans hports
    rwa [hsame] at hthrough
  · exact hrunplain
  · exact hresp

end

/-- A message has its turn when its process asks for the lock. -/
theorem Together.asks_lock (h : Together m₀ devices r c t) {s : Sending} (he : Even c t j [s] [])
    (hm : s.message.checkSize = .ok ()) (hmem : (c.process j).memory.disabled = false)
    (hh : c.holder = none) (hd : (c.process j).doing = .sending s s.lockedJob.run) :
    Together m₀ devices r (c.step machine (Topology.ofDevices devices) j) (t.take machine j) := by
  rw [Sending.lockedJob, World.locked_eq, ExceptT.run_mk] at hd
  rw [Crew.step_ask hd (by simp [hh])]
  cases hl : machine.lock s.config.lockPath c.machine with
  | mk x m =>
    have hanswer : World.answer machine (.lock s.config.lockPath) ⟨c.machine, (c.process j).memory⟩ =
        (x, ⟨m, (c.process j).memory⟩) := by
      simp only [World.answer, hl]
    rw [hanswer]
    cases x with
    | error e => exact h.lock_refused he hm hmem hh hl
    | ok _ => exact h.lock_granted he hm hmem hh hl

section

variable {s : Sending} {x : Except Error (List UInt32)} {w : World State}

omit [DecidableEq ι] in
theorem Within.alone {q : Program (Except Error (List UInt32))} (hw : Within m₀ c t j s q x w) :
    ∀ i ≠ j, c.holder ≠ some i := by
  intro i hi hh
  rw [hw.holder] at hh
  exact hi (Option.some.inj hh).symm

/-- The process that has the lock gives it back. -/
theorem Together.gives_back (h : Together m₀ devices r c t) {y : Except Error (List UInt32)}
    (hw : Within m₀ c t j s (.done y) x w)
    (hd : (c.process j).doing = .sending s (.ask (.unlock s.config.lockPath) fun _ => .done y)) :
    Together m₀ devices r (c.step machine (Topology.ofDevices devices) j) t := by
  rw [Crew.step_ask hd (by simp [Request.asksLock])]
  have hended := hw.ends
  simp only [Program.bind, Program.run, answer_plain (q := .unlock s.config.lockPath) trivial] at hended
  obtain ⟨rfl, rfl⟩ := Prod.mk.inj hended
  refine h.of_frame (.answered ?_ (fun i hi hh => absurd hh (hw.alone i hi)) fun _ _ _ hi => hi) h.ports
    (by simpa using h.tables j) h.acquired (fun _ => hw.machine.symm) ?_
  · intro i hi
    exact ⟨fun hh => (by cases hh), fun hh => absurd hh (hw.alone i hi)⟩
  simp only [Stands, Crew.answered_process]
  refine Or.inr (Or.inl ⟨y, rfl, .of_process (Crew.answered_process ..) hw.memory.symm hw.left hw.responses ?_⟩)
  intro hh
  cases hh

/-- The process that has the lock makes its next request. -/
theorem Together.goes_on (h : Together m₀ devices r c t) {q : Request}
    {next : q.Reply → Program (Except Error (List UInt32))} (hw : Within m₀ c t j s (.ask q next) x w)
    (hd : (c.process j).doing =
      .sending s (.ask q fun a => (next a).bind (unlocking s.config.lockPath))) :
    Together m₀ devices r (c.step machine (Topology.ofDevices devices) j) t := by
  obtain ⟨hmail, hlocking⟩ := hw.only.1
  rw [Crew.step_ask hd (by simp [Request.not_asksLock hlocking])]
  have hports := hw.ports
  have hended := hw.ends
  generalize hworld : (⟨c.machine, (c.process j).memory⟩ : World State) = u at hports hended ⊢
  have hindex := answer_smnIndex hmail u
  rw [Program.Throughout, answer_plain hmail] at hports
  simp only [Program.bind, Program.run, answer_plain hmail] at hended
  obtain ⟨hh, ha⟩ := Crew.answered_same (i := j) (e := ⟨q, (World.answer machine q u).1⟩)
    (w := (World.answer machine q u).2)
    (d := .sending s ((next (World.answer machine q u).1).bind (unlocking s.config.lockPath))) (c := c) hlocking
  refine h.of_frame (.answered (fun i _ => by rw [hh]) (fun i hi hn => absurd hn (hw.alone i hi)) ?_)
    ((plain_ports _).symm.trans hports.2.first) (by simpa using h.tables j) (h.acquired.trans ha.symm) ?_ ?_
  · intro d a _ hn
    rw [← hworld] at hindex ⊢
    exact hn.same hindex
  · rw [hh, hw.holder]
    exact fun hn => by cases hn
  · simp only [Stands, Crew.answered_process]
    refine Or.inr (Or.inr ⟨next (World.answer machine q u).1, x, w, rfl, hh.trans hw.holder, ?_, hw.only.2 _, ?_,
      ?_, hw.machine, hw.memory, ?_⟩)
    all_goals rw [Crew.answered_process]
    · exact hw.left
    · exact hports.2
    · exact hended
    · exact hw.responses

end

/-- Short of the lock a message asks whether its process gave up, and nobody else notices. -/
theorem Together.asks_itself (h : Together m₀ devices r c t) {s : Sending} (he : Even c t j [s] [])
    {next : Bool → Program (Except Error (List UInt32))}
    (hb : Before s (c.process j).memory (next (c.process j).memory.disabled))
    (hd : (c.process j).doing = .sending s (.ask .isDisabled next)) :
    Together m₀ devices r (c.step machine (Topology.ofDevices devices) j) t := by
  rw [Crew.step_ask hd (by simp [Request.asksLock])]
  refine h.of_frame (.answered (fun _ _ => Iff.rfl) (fun _ _ _ => rfl) fun _ _ _ hi => hi) h.ports
    (by simpa using h.tables j) h.acquired h.idle ?_
  simp only [Stands, Crew.answered_process]
  exact Or.inl ⟨.of_process (Crew.answered_process ..) he.memory he.left he.responses he.free, hb⟩

/-- Every step is matched by none or one of the turns. -/
theorem Together.step (h : Together m₀ devices r c t)
    (hd : ∀ a ∈ devices, ∀ b ∈ devices, a.handle = b.handle → a.address.bus = b.address.bus)
    (hr : Looks m₀ devices (Topology.ofDevices devices).run r) (j : ι) : ∃ order,
      Together m₀ devices r (c.step machine (Topology.ofDevices devices) j) (t.run machine order) := by
  cases hdoing : (c.process j).doing with
  | nothing => exact ⟨[], h.begins hr hdoing⟩
  | discovering p =>
    cases p with
    | done x => exact ⟨[], h.ends_discovery hdoing⟩
    | ask q next => exact ⟨[], h.looks hd hdoing⟩
  | sending s p =>
    cases p with
    | done x => exact h.ends_sending hdoing
    | ask q next =>
      have hj := h.stands j
      unfold Stands at hj
      rw [hdoing] at hj
      rcases hj with ⟨he, hb⟩ | ⟨x, hx, -⟩ | ⟨q', x, w, hq, hw⟩
      · rcases hb.cases with ⟨x, hx, -⟩ | ⟨next', hn, hb'⟩ | ⟨hm, hmem, hp⟩
        · cases hx
        · cases hn
          exact ⟨[], h.asks_itself he hb' hdoing⟩
        · cases hh : c.holder with
          | none => exact ⟨[j], h.asks_lock he hm hmem hh (hp ▸ hdoing)⟩
          | some i =>
            rw [Sending.lockedJob, World.locked_eq, ExceptT.run_mk] at hp
            rw [hp] at hdoing
            rw [Crew.step_wait hdoing rfl (by rw [hh]; rfl)]
            exact ⟨[], h⟩
      · cases hx
      · cases q' with
        | done y =>
          cases hq
          exact ⟨[], h.gives_back hw hdoing⟩
        | ask q' next' =>
          cases hq
          exact ⟨[], h.goes_on hw hdoing⟩

/-! ## A whole schedule -/

theorem Together.run (h : Together m₀ devices r c t)
    (hd : ∀ a ∈ devices, ∀ b ∈ devices, a.handle = b.handle → a.address.bus = b.address.bus)
    (hr : Looks m₀ devices (Topology.ofDevices devices).run r) (schedule : List ι) : ∃ order,
      Together m₀ devices r (c.run machine (Topology.ofDevices devices) schedule) (t.run machine order) := by
  induction schedule generalizing c t with
  | nil => exact ⟨[], h⟩
  | cons j rest ih =>
    obtain ⟨first, hfirst⟩ := h.step hd hr j
    obtain ⟨order, hrest⟩ := ih hfirst
    refine ⟨first ++ order, ?_⟩
    rw [Turns.run_append]
    exact hrest

omit [DecidableEq ι] in
theorem together_start (m : State) (devices : List PciDevice) (r : Except Error Topology) (memory : ι → Memory)
    (tasks : ι → List Task) :
    Together m devices r (Crew.start m memory tasks) (Turns.start m memory tasks) where
  ports := rfl
  tables _ _ hx := by cases hx
  acquired := rfl
  idle _ := rfl
  stands _ := ⟨rfl, rfl, rfl, fun hh => by cases hh⟩

/-- What the processes of a crew were told, and where they left the machine, are as after the turns. -/
structure InTurn (c : Crew ι State) (t : Turns ι State) : Prop where
  acquired : t.acquired = c.acquired
  /-- A message that is still under way may have had its turn. -/
  responses : ∀ i, (c.process i).responses <+: t.responses i
  at_rest : ∀ i, (c.process i).doing = .nothing →
    t.responses i = (c.process i).responses ∧ t.left i = sendings (c.process i).left
  /-- Only discovery's own indexes may differ. -/
  idle : c.holder = none → t.machine.plain = c.machine.plain

omit [DecidableEq ι] in
theorem Together.inTurn (h : Together m₀ devices r c t) : InTurn c t := by
  refine ⟨h.acquired, fun i => ?_, fun i hn => ?_, h.idle⟩
  · have hi := h.stands i
    unfold Stands at hi
    split at hi
    · exact ⟨[], hi.responses.symm⟩
    · exact ⟨[], hi.1.responses.symm⟩
    · rcases hi with ⟨he, -⟩ | ⟨x, -, he⟩ | ⟨_, x, _, -, hw⟩
      · exact ⟨[], he.responses.symm⟩
      · exact ⟨[x], he.responses.symm⟩
      · exact ⟨[x], hw.responses.symm⟩
  · have hi := h.stands i
    unfold Stands at hi
    rw [hn] at hi
    exact ⟨by simpa using hi.responses, hi.left⟩

/-- Processes share a simulated machine and the list of its devices, where a handle is that of one device.
    In whatever order they make their requests, but that only one of them has the lock: every discovery
    ends as it ends alone, and the messages end as if they had been sent one after the other, in the
    order in which the lock was given. -/
theorem interleaved_as_in_turn {devices : List PciDevice}
    (hd : ∀ a ∈ devices, ∀ b ∈ devices, a.handle = b.handle → a.address.bus = b.address.bus)
    (m : State) (memory : ι → Memory) (tasks : ι → List Task) (schedule : List ι) :
    let c := (Crew.start m memory tasks).run machine (Topology.ofDevices devices) schedule
    (∀ i, ∀ x ∈ (c.process i).tables, ∀ mem, x = (World.run machine (Topology.ofDevices devices) ⟨m, mem⟩).1) ∧
      ∃ order, InTurn c ((Turns.start m memory tasks).run machine order) := by
  obtain ⟨r, hr⟩ := looks_ofDevices m devices
  obtain ⟨order, h⟩ := (together_start m devices r memory tasks).run hd hr schedule
  refine ⟨fun i x hx mem => ?_, order, h.inTurn⟩
  have halone := hr.run (w := ⟨m, mem⟩) rfl
  exact (h.tables i x hx).trans halone.symm

/-- The test message with this number, on its way to the first device. -/
def testing (n : UInt32) : Sending :=
  { config := config, device := 0, message := { id := .test, args := [n], responseLength := 1 } }

/-- One discovers the tiles and sends a message to the first of them, the other does it the other way
    round. -/
def errands : Bool → List Task
  | false => [.discover, .send (testing 41)]
  | true => [.send (testing 7), .discover]

/-- They make their steps by turns, until both are done. -/
def alternating : List Bool := (List.replicate 40 [false, true]).flatten

def crossedCrew : Crew Bool State :=
  (Crew.start Topology.crossed (fun _ => {}) errands).run machine (Topology.ofDevices Topology.crossed.found)
    alternating

theorem errands_as_in_turn :
    ((crossedCrew.process false).tables = [.ok Topology.crossedTable] ∧
      (crossedCrew.process true).tables = [.ok Topology.crossedTable] ∧
      (crossedCrew.process false).responses = [.ok [42]] ∧ (crossedCrew.process true).responses = [.ok [8]] ∧
      crossedCrew.acquired = [true, false]) ∧
    (World.run machine (Topology.ofDevices Topology.crossed.found) ⟨Topology.crossed, {}⟩).1 =
      .ok Topology.crossedTable ∧
    ∃ order, InTurn crossedCrew ((Turns.start Topology.crossed (fun _ => {}) errands).run machine order) := by
  have hran : (crossedCrew.process false).tables = [.ok Topology.crossedTable] ∧
      (crossedCrew.process true).tables = [.ok Topology.crossedTable] ∧
      (crossedCrew.process false).responses = [.ok [42]] ∧ (crossedCrew.process true).responses = [.ok [8]] ∧
      crossedCrew.acquired = [true, false] := by
    rw [crossedCrew, Topology.ofDevices, Topology.arrange_crossed, Topology.byBus_crossed]
    decide +kernel
  have hbus : ∀ a ∈ Topology.crossed.found, ∀ b ∈ Topology.crossed.found, a.handle = b.handle →
      a.address.bus = b.address.bus := by
    decide +kernel
  obtain ⟨halone, hturn⟩ := interleaved_as_in_turn hbus Topology.crossed (fun _ => {}) errands alternating
  unfold crossedCrew at hran ⊢
  refine ⟨hran, (halone false _ ?_ {}).symm, hturn⟩
  rw [hran.1]
  exact List.mem_singleton_self _

end Simulation

end FirmwareMailbox
