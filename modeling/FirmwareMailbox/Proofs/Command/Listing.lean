/-
  FirmwareMailbox.Proofs.Command.Listing — what the listing of a machine prints.

  Where the gate stands open (`World.Admits`), a session that is asked for a bus asks the table it holds, and
  nothing changes (`Admits.run_busAfter`). So a walk of a command is a walk over that table: it ends, however
  many more steps it might take, and prints what the walk over the table has (`Prints.walk`). What is printed
  changes nothing that the gate looks at, so the texts of several jobs one after the other are the texts of
  each (`Prints.andThen`), and from these the listing is put together.

  A session whose caller has no privilege, or whose process gave up, is stopped at the gate, whatever it
  holds. Any other tours the table that it holds (`Tours`).
-/

import FirmwareMailbox.Command.Run
import FirmwareMailbox.Proofs.Session.Gating
import FirmwareMailbox.Proofs.Session.Refusing
import FirmwareMailbox.Proofs.Topology.Walk

namespace FirmwareMailbox

namespace World

variable {μ : Type} {M : Machine μ} {inv : Inventory} {w : World μ} {s : Session}

/-- The process has printed these texts as well. -/
def printed (w : World μ) (texts : List String) : World μ :=
  { w with memory := { w.memory with output := w.memory.output ++ String.join texts } }

theorem printed_nil (w : World μ) : w.printed [] = w := by
  simp [printed]

theorem printed_printed (w : World μ) (xs ys : List String) : (w.printed xs).printed ys = w.printed (xs ++ ys) := by
  simp [printed, String.join_append, String.append_assoc]

/-! ## At the gate -/

/-- The gate stands open, and behind it is this inventory. -/
structure Admits (M : Machine μ) (inv : Inventory) (w : World μ) : Prop where
  privileged : M.isPrivileged w.machine = true
  trusting : w.memory.disabled = false
  known : w.memory.inventory = some inv

theorem Admits.printed (h : Admits M inv w) (texts : List String) : Admits M inv (w.printed texts) :=
  ⟨h.privileged, h.trusting, h.known⟩

theorem Admits.run_gate (h : Admits M inv w) (s : Session) : World.run M (s.gate none) w = (.ok inv, w) := by
  obtain ⟨-, hw, hr⟩ := runs_gate_known h.privileged h.trusting h.known (runs M (s.gate none) w)
  rcases hr with ⟨hr, -⟩ | ⟨id, hid, -⟩
  · exact Prod.ext hr hw
  · cases hid

theorem Admits.run_busAfter (h : Admits M inv w) (s : Session) (index : Nat) :
    World.run M (s.busAfter index) w = (inv.topology.busAfter index, w) :=
  run_bind_ok (h.run_gate s)

theorem Admits.run_lowestBuses (h : Admits M inv w) (s : Session) :
    World.run M s.lowestBuses w = (.ok inv.topology.lowestBuses, w) :=
  run_bind_ok (h.run_gate s)

theorem Refuses.unprivileged (hp : M.isPrivileged w.machine = false) (s : Session) (m? : Option MessageId) :
    Refuses M w (.denied .notRoot) (s.gate m?) := by
  have h := runs M (s.gate m?) w
  generalize World.transcript M (s.gate m?) w = es at h
  generalize (World.run M (s.gate m?) w).1 = r, (World.run M (s.gate m?) w).2 = u at h
  cases Session.runs_gate h with
  | denied => exact ⟨_, h⟩
  | disabled hp' | known hp' | learned hp' | failed hp' => cases hp.symm.trans hp'

end World

namespace Command

open Text World

variable {μ : Type} {M : Machine μ} {inv : Inventory} {s : Session} {j k : Job Unit} {xs ys : List String}

/-- A bus as a walk shows it. -/
def busText (bus : UInt8) : String := " " ++ hexByte bus.toNat

/-- The texts of a whole listing. -/
def listing (inv : Inventory) : List String :=
  ["processor: " ++ inv.processor.name ++ "\n"] ++ ["sockets: " ++ decimal inv.topology.socketCount ++ "\n"] ++
    inv.topology.tiles.map (tileLine · ++ "\n") ++ ["cpus: " ++ decimal inv.cpus.size ++ "\n"] ++
    inv.cpus.entries.map (cpuLine · ++ "\n") ++ ["buses:"] ++ inv.topology.lowestBuses.map busText ++ ["\n"]

/-- Where the gate stands open, the job prints these texts and does nothing else. -/
def Prints (M : Machine μ) (inv : Inventory) (j : Job Unit) (texts : List String) : Prop :=
  ∀ w, Admits M inv w → World.run M j w = (.ok (), w.printed texts)

namespace Prints

theorem done : Prints M inv (pure ()) [] := fun w _ => by
  rw [printed_nil]
  rfl

theorem text (t : String) : Prints M inv (Job.ask (.print t)) [t] := fun w _ => by
  have hjoin : String.join [t] = t := by simp
  rw [World.printed, hjoin]
  exact (runs_ask.mpr ⟨rfl, rfl, rfl⟩).run

theorem andThen (hj : Prints M inv j xs) (hk : Prints M inv k ys) : Prints M inv (j >>= fun _ => k) (xs ++ ys) := by
  intro w hw
  rw [run_bind_ok (hj w hw), hk _ (hw.printed xs), printed_printed]

theorem line (l : String) : Prints M inv (printLine l) [l ++ "\n"] := text _

theorem lines (ls : List String) : Prints M inv (printLines ls) (ls.map (· ++ "\n")) := by
  induction ls with
  | nil => exact done
  | cons l rest ih => exact (line l).andThen ih

/-- By the calls of the walk: each takes one step and prints one bus, and the last leaves no step to take. -/
theorem walk {index steps : Nat} {buses : List UInt8} (h : inv.topology.Walks index buses)
    (hsteps : buses.length ≤ steps) : Prints M inv (walkBuses s index steps) (buses.map busText) := by
  induction h generalizing steps with
  | @last index bus hcall =>
    cases steps with
    | zero => cases hsteps
    | succ steps =>
      intro w hw
      have hbus := hw.run_busAfter s index
      rw [hcall] at hbus
      rw [walkBuses, run_bind_ok hbus]
      exact (text (busText bus)).andThen done w hw
  | @more index next bus rest hcall hne _ ih =>
    cases steps with
    | zero => cases hsteps
    | succ steps =>
      intro w hw
      have hbus := hw.run_busAfter s index
      rw [hcall] at hbus
      have hrest : Prints M inv (walkBuses s next steps) (rest.map busText) := ih (Nat.le_of_succ_le_succ hsteps)
      rw [walkBuses, run_bind_ok hbus]
      simp only [if_pos hne]
      exact (text (busText bus)).andThen hrest w hw

end Prints

/-- A session that learns the machine for it, or knows it already, lists the machine as it is known then. -/
theorem run_listMachine {w u : World μ} (hgate : World.run M (s.gate none) w = (.ok inv, u)) (hu : Admits M inv u)
    (hinv : inv.topology.Walkable) : World.run M (listMachine s) w = (.ok (), u.printed (listing inv)) := by
  have hwalk : Prints M inv (walkBuses s 0 inv.topology.tiles.length) (inv.topology.lowestBuses.map busText) :=
    .walk ((hinv.walks_iff _).mpr rfl) (Nat.le_of_eq hinv.calls)
  have hall := (Prints.line ("processor: " ++ inv.processor.name)).andThen <|
    (Prints.line ("sockets: " ++ decimal inv.topology.socketCount)).andThen <|
    (Prints.lines (inv.topology.tiles.map tileLine)).andThen <|
    (Prints.line ("cpus: " ++ decimal inv.cpus.size)).andThen <|
    (Prints.lines (inv.cpus.entries.map cpuLine)).andThen <|
    (Prints.text "buses:").andThen <| hwalk.andThen <| Prints.line ""
  rw [listMachine, run_bind_ok hgate, hall u hu]
  simp [listing, Function.comp_def]

end Command

namespace World

open Command

variable {μ : Type} {M : Machine μ} {inv : Inventory} {w : World μ} {s : Session}

/-- What a session can do with its table: each call for a bus is the table's own and changes nothing, the walk
    of a listing ends, whatever more steps it might take, and prints each lowest bus once, and so the listing
    ends. -/
structure Tours (M : Machine μ) (s : Session) (inv : Inventory) (w : World μ) : Prop where
  call : ∀ index, World.run M (s.busAfter index) w = (inv.topology.busAfter index, w)
  buses : World.run M s.lowestBuses w = (.ok inv.topology.lowestBuses, w)
  walk : ∀ steps, inv.topology.tiles.length ≤ steps →
    World.run M (walkBuses s 0 steps) w = (.ok (), w.printed (inv.topology.lowestBuses.map busText))
  whole : World.run M (listMachine s) w = (.ok (), w.printed (listing inv))

theorem Admits.tours (h : Admits M inv w) (hinv : inv.topology.Walkable) (s : Session) : Tours M s inv w where
  call := h.run_busAfter s
  buses := h.run_lowestBuses s
  walk _ hsteps := Prints.walk ((hinv.walks_iff _).mpr rfl) (hinv.calls ▸ hsteps) w h
  whole := run_listMachine (h.run_gate s) h hinv

/-- The walk over every table that discovery ends in takes one call for each tile and ends with all lowest
    buses, each once and in ascending order from bus 0 on; behind the table every index is refused. A session
    that holds such a table walks over it as long as the gate lets its caller pass; else each of its calls is
    refused, and nothing changes. One that holds none yet learns the machine when it is asked for a listing,
    and lists it. -/
theorem bus_walk_complete (M : Machine μ) (m : μ) (moves : List (Move μ)) (s : Session) :
    let w := after M moves ⟨m, {}⟩
    (∀ devices es t, Job.Yields (Topology.ofDevices devices) es (.ok t) → t.Walkable) ∧
    (∀ inv, w.memory.inventory = some inv → inv.topology.Walkable ∧
      (M.isPrivileged w.machine = true → w.memory.disabled = false → Tours M s inv w) ∧
      ∀ index,
        (M.isPrivileged w.machine = false → World.run M (s.busAfter index) w = (.error (.denied .notRoot), w)) ∧
        (M.isPrivileged w.machine = true → w.memory.disabled = true →
          World.run M (s.busAfter index) w = (.error (.unsupported .disabled), w))) ∧
    ∀ inv u, World.run M (s.gate none) w = (.ok inv, u) → M.isPrivileged u.machine = true →
      u.memory.disabled = false → inv.topology.Walkable ∧ Tours M s inv u ∧
        World.run M (listMachine s) w = (.ok (), u.printed (listing inv)) := by
  intro w
  have hsound : ∀ inv, w.memory.inventory = some inv → inv.Sound := sound_moves moves _ fun _ hi => by cases hi
  refine ⟨fun devices es t h => (Topology.numbers_of_yields h).1.walkable, fun inv hi => ?_,
    fun inv u hgate hp hd => ?_⟩
  · have hinv := (hsound inv hi).arranged.walkable
    refine ⟨hinv, fun hp hd => Admits.tours ⟨hp, hd, hi⟩ hinv s, fun index => ⟨fun hp => ?_, fun hp hd => ?_⟩⟩
    · obtain ⟨es, h⟩ := (Refuses.unprivileged hp s none).bind
      exact h.run
    · obtain ⟨es, h⟩ := (Refuses.gate hp hd s none).bind
      exact h.run
  · have hruns : Runs M (s.gate none) w (World.transcript M (s.gate none) w) (.ok inv) u := ⟨hgate, rfl⟩
    have hu : Admits M inv u := ⟨hp, hd, (Session.gate_ok hruns).1⟩
    have hsafe : inv.Sound := ((Remembers.gate s none).runs hruns).sound hsound inv hu.known
    exact ⟨hsafe.arranged.walkable, hu.tours hsafe.arranged.walkable s,
      run_listMachine hgate hu hsafe.arranged.walkable⟩

/-- A new process lists the machine in good health. -/
theorem bus_walk_complete_crossed : ∃ (inv : Inventory) (u : World Simulation.State),
    let s : Session := ⟨Simulation.config⟩
    inv.topology = Topology.crossedTable ∧
      World.run Simulation.machine (s.gate none) ⟨Simulation.sound, {}⟩ = (.ok inv, u) ∧
      Simulation.machine.isPrivileged u.machine = true ∧ u.memory.disabled = false ∧
      (∀ buses, inv.topology.Walks 0 buses ↔ buses = [0x00, 0x20, 0x40, 0x60, 0x80, 0xA0, 0xC0, 0xE0]) ∧
      World.run Simulation.machine (s.busAfter 8) u = (.error (.invalidArgument (.busIndex 8)), u) ∧
      World.run Simulation.machine (listMachine s) ⟨Simulation.sound, {}⟩ = (.ok (), u.printed (listing inv)) := by
  obtain ⟨firmware, hdoor⟩ := Simulation.sound_healthy.door (s := ⟨Simulation.config⟩) rfl
  obtain ⟨m, mem, hgate, hknows, hserv⟩ := hdoor none
  have hp : Simulation.machine.isPrivileged m = true := hserv.privileged
  obtain ⟨-, -, hopen⟩ := bus_walk_complete Simulation.machine Simulation.sound [] ⟨Simulation.config⟩
  obtain ⟨hinv, htours, hlist⟩ := hopen _ _ hgate hp hknows.working
  have hlength : Topology.crossedTable.tiles.length ≤ 8 := by decide
  refine ⟨_, _, rfl, hgate, hp, hknows.working, hinv.walks_iff, ?_, hlist⟩
  rw [htours.call, hinv.past 8 hlength]

/-- The caller has no privilege any more. -/
def dropPrivilege (m : Simulation.State) : Simulation.State := { m with privileged := false }

/-- A session holds its table still when its caller has lost the privilege, and is refused the first bus. -/
theorem bus_walk_denied :
    let s : Session := ⟨Simulation.config⟩
    let w := after Simulation.machine [.step s (.gate none), .change dropPrivilege] ⟨Simulation.sound, {}⟩
    (∃ inv, w.memory.inventory = some inv) ∧
      World.run Simulation.machine (s.busAfter 0) w = (.error (.denied .notRoot), w) ∧
      ¬ ∀ (m : Simulation.State) (moves : List (Move Simulation.State)) (inv : Inventory),
        (after Simulation.machine moves ⟨m, {}⟩).memory.inventory = some inv →
        ∃ bus next, (World.run Simulation.machine (s.busAfter 0) (after Simulation.machine moves ⟨m, {}⟩)).1 =
          .ok (bus, next) := by
  intro s w
  obtain ⟨firmware, hdoor⟩ := Simulation.sound_healthy.door (s := s) rfl
  obtain ⟨m, mem, hgate, hknows, -⟩ := hdoor none
  have hworld : (World.run Simulation.machine ((Step.gate none).perform s) ⟨Simulation.sound, {}⟩).2 = ⟨m, mem⟩ := by
    rw [Step.perform, map_eq_pure_bind, run_bind_ok hgate]
    rfl
  have hi := (congrArg (·.memory.inventory) hworld).trans hknows.inventory
  obtain ⟨es, hdenied⟩ := (Refuses.unprivileged (M := Simulation.machine) (w := w) rfl s none).bind
  have hrun : World.run Simulation.machine (s.busAfter 0) w = (.error (.denied .notRoot), w) := hdenied.run
  refine ⟨⟨_, hi⟩, hrun, fun hall => ?_⟩
  obtain ⟨bus, next, hok⟩ := hall Simulation.sound [.step s (.gate none), .change dropPrivilege] _ hi
  change (World.run Simulation.machine (s.busAfter 0) w).1 = _ at hok
  rw [hrun] at hok
  cases hok

end World

end FirmwareMailbox
