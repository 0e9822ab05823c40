/-
  FirmwareMailbox.Proofs.Command.Sockets — commands that go from socket to socket.

  Nothing that a session does with the machine prints (`Assembled.silent`), and what was printed before makes no
  difference to it (`Runs.printed`). So what the readings of the sockets come to does not depend on the lines
  between them, and a command that reads is told by the readings alone, one after the other in worlds without
  output: it has their events with a line after each that succeeded, and ends where the first one failed
  (`shows`).

  To set a limit and read it back is one loop before another. The second one starts where the first has done
  every socket, and not at all if one of them failed (`Sets`).
-/

import FirmwareMailbox.Proofs.Command.Listing
import FirmwareMailbox.Proofs.Machine.Series
import FirmwareMailbox.Proofs.Session.Fanout

namespace FirmwareMailbox

/-! ## Printing -/

/-- Prints something. -/
def Request.isPrint : Request → Bool
  | .print _ => true
  | _ => false

namespace World

variable {μ α : Type} {M : Machine μ} {w u : World μ} {es : List Event} {r : Except Error α} {j : Job α}

/-- What was printed before makes no difference to a program that does not print. -/
theorem run_printed {p : Program α} (hp : p.Only (·.isPrint = false)) (w : World μ) (texts : List String) :
    Program.run (answer M) p (w.printed texts) =
      ((Program.run (answer M) p w).1, (Program.run (answer M) p w).2.printed texts) ∧
    Program.transcript (answer M) p (w.printed texts) = Program.transcript (answer M) p w := by
  induction p generalizing w with
  | done a => exact ⟨rfl, rfl⟩
  | ask q next ih =>
    have hq : answer M q (w.printed texts) = ((answer M q w).1, (answer M q w).2.printed texts) := by
      cases q
      case print t => cases hp.1
      all_goals rfl
    obtain ⟨hrun, htranscript⟩ := ih (answer M q w).1 (hp.2 _) (answer M q w).2
    simp only [Program.run, Program.transcript, hq]
    exact ⟨hrun, by rw [htranscript]⟩

theorem Runs.printed (h : Runs M j w es r u) (hj : Job.Only (·.isPrint = false) j) (texts : List String) :
    Runs M j (w.printed texts) es r (u.printed texts) := by
  obtain ⟨hrun, htranscript⟩ := run_printed (M := M) hj w texts
  obtain ⟨h, rfl⟩ := h
  change Program.run (answer M) j.run w = _ at h
  rw [h] at hrun
  exact ⟨hrun, htranscript⟩

theorem Runs.output (h : Runs M j w es r u) (hj : Job.Only (·.isPrint = false) j) :
    u.memory.output = w.memory.output := by
  have hkeeps : Conducts M (fun w _ w' => w'.memory.output = w.memory.output) j.run := by
    refine hj.conducts ⟨fun _ => rfl, fun h h' => h'.trans h⟩ fun q w hq => ?_
    cases q
    case print t => cases hq
    all_goals rfl
  exact hkeeps.runs h

end World

namespace Assembled

variable {α : Type} {s : Session} {P : Message → Prop} {j : Job α}

/-- Whatever a session does with the machine, it prints nothing. -/
theorem silent (h : Assembled s P j) : Job.Only (·.isPrint = false) j := by
  have hexchange : ∀ d m highest, Job.Only (·.isPrint = false) (Message.exchange s.config d m highest) :=
    fun d m highest => (Message.exchange_only d s.config m highest).mono fun q hq => by cases q <;> first | rfl | cases hq
  refine Program.Only.closed.assembled (fun m? => ?_) (fun d m highest _ => hexchange d m highest) h
  refine Program.Only.closed.gate (fun q hq => ⟨?_, fun _ => trivial⟩) (fun devices => ?_) s
    (fun d m _ => hexchange d m none) m?
  · cases q <;> first | rfl | cases hq
  · exact (Topology.ofDevices_only devices).mono fun q hq => by cases q <;> first | rfl | cases hq

end Assembled

namespace Command

open Text World Series

variable {μ : Type} {M : Machine μ} {s : Session} {w u v : World μ} {es fs : List Event} {ns : List Nat} {n k : Nat}
  {e : Error}

/-! ## Loops over sockets -/

/-- A loop over a list is one over its places. -/
theorem forEach_eq (act : Nat → Job Unit) (ns : List Nat) :
    forEach act ns = (List.range ns.length).mapM (fun i => act (ns.getD i 0)) >>= fun _ => pure () := by
  have hmap : ∀ ns : List Nat, forEach act ns = ns.mapM act >>= fun _ => pure () := by
    intro ns
    induction ns with
    | nil => rfl
    | cons n rest ih => simp [forEach, ih]
  have hplaces : ns = (List.range ns.length).map (ns.getD · 0) := by
    apply List.ext_getElem
    · simp
    · intro i hi _
      simp [hi]
  have hns := hmap ns
  rw [hplaces, List.mapM_map] at hns
  rw [← hplaces] at hns
  exact hns

/-- Something is done to the places of the list in order. -/
abbrev each {α : Type} (act : Nat → Job α) (ns : List Nat) (i : Nat) : Job α := act (ns.getD i 0)

theorem runs_forEach_ok {act : Nat → Job Unit} (h : Succeeds M (each act ns) w ns.length) :
    Runs M (forEach act ns) w (Series.trace M (each act ns) w ns.length) (.ok ())
      (Series.world M (each act ns) w ns.length) := by
  rw [forEach_eq]
  have hall : ∀ i < ns.length, Series.result M (each act ns) w i = .ok () := fun i hi => by
    obtain ⟨⟨⟩, hi⟩ := h i hi
    exact hi
  exact runs_bind_ok.mpr ⟨_, [], _, _, (List.append_nil _).symm, runs_mapM_ok hall, runs_pure.mpr ⟨rfl, rfl, rfl⟩⟩

theorem runs_forEach_error {act : Nat → Job Unit} (hk : k < ns.length) (h : FailsAt M (each act ns) w k e) :
    Runs M (forEach act ns) w (Series.trace M (each act ns) w (k + 1)) (.error e)
      (Series.world M (each act ns) w (k + 1)) := by
  rw [forEach_eq]
  exact runs_bind.mpr (.inl ⟨e, rfl, runs_mapM_error hk h⟩)

/-! ## Lines -/

/-- The line that a reading of a socket is shown in. -/
def line (n : Nat) (shown : String) : String := "socket " ++ decimal n ++ ": " ++ shown ++ "\n"

/-- What a reading has printed. -/
def said (n : Nat) : Except Error String → List String
  | .ok shown => [line n shown]
  | .error _ => []

/-- What the first `k` sockets have printed. -/
def lines (M : Machine μ) (f : Nat → Job String) (ns : List Nat) (w : World μ) (k : Nat) : List String :=
  (List.range k).flatMap fun i => said (ns.getD i 0) (Series.result M (each f ns) w i)

/-- The events of the first `k` sockets, each with those of its line. -/
def shownTrace (M : Machine μ) (f : Nat → Job String) (ns : List Nat) (w : World μ) (k : Nat) : List Event :=
  (List.range k).flatMap fun i => Series.events M (each f ns) w i ++
    (said (ns.getD i 0) (Series.result M (each f ns) w i)).map (⟨.print ·, ()⟩)

/-- Reads a socket and prints the line. -/
def showOne (f : Nat → Job String) (n : Nat) : Job Unit := do
  let shown ← f n
  printLine ("socket " ++ decimal n ++ ": " ++ shown)

theorem runs_showOne {f : Nat → Job String} {r : Except Error String} (h : Runs M (f n) w es r u) :
    Runs M (showOne f n) w (es ++ (said n r).map (⟨.print ·, ()⟩)) (r.map fun _ => ()) (u.printed (said n r)) := by
  cases r with
  | error e => 
    rw [said, List.map_nil, List.append_nil, printed_nil]
    exact runs_bind.mpr (.inl ⟨e, rfl, h⟩)
  | ok shown =>
    refine runs_bind_ok.mpr ⟨es, _, shown, u, rfl, h, runs_ask.mpr ⟨rfl, rfl, ?_⟩⟩
    simp [said, World.printed, answer, line]

section

variable {f : Nat → Job String} (hf : ∀ n, Job.Only (·.isPrint = false) (f n))

include hf

/-- The lines of the sockets before make no difference to a reading. -/
theorem runs_each_showOne (hw : Series.world M (each (showOne f) ns) w k =
    (Series.world M (each f ns) w k).printed (lines M f ns w k)) :
    Runs M (each (showOne f) ns k) (Series.world M (each (showOne f) ns) w k)
      (Series.events M (each f ns) w k ++
        (said (ns.getD k 0) (Series.result M (each f ns) w k)).map (⟨.print ·, ()⟩))
      ((Series.result M (each f ns) w k).map fun _ => ())
      ((Series.world M (each f ns) w (k + 1)).printed (lines M f ns w (k + 1))) := by
  have hreading := (Series.runs (M := M) (f := each f ns) (w := w) k).printed (hf _) (lines M f ns w k)
  have hlines : lines M f ns w (k + 1) =
      lines M f ns w k ++ said (ns.getD k 0) (Series.result M (each f ns) w k) := by
    simp [lines, List.range_succ]
  rw [hw, hlines, ← printed_printed]
  exact runs_showOne hreading

theorem world_showOne (k : Nat) : Series.world M (each (showOne f) ns) w k =
    (Series.world M (each f ns) w k).printed (lines M f ns w k) := by
  induction k with
  | zero => exact (printed_nil w).symm
  | succ k ih => exact congrArg Prod.snd (runs_each_showOne hf ih).run

theorem result_showOne (k : Nat) : Series.result M (each (showOne f) ns) w k =
    (Series.result M (each f ns) w k).map fun _ => () :=
  congrArg Prod.fst (runs_each_showOne hf (world_showOne hf k)).run

theorem trace_showOne (k : Nat) : Series.trace M (each (showOne f) ns) w k = shownTrace M f ns w k :=
  congrArg List.flatten (List.map_congr_left fun i _ => (runs_each_showOne hf (world_showOne hf i)).transcript)

theorem succeeds_showOne : Succeeds M (each (showOne f) ns) w k ↔ Succeeds M (each f ns) w k := by
  refine forall₂_congr fun i _ => ?_
  rw [result_showOne hf]
  cases Series.result M (each f ns) w i <;> simp [Except.map]

theorem failsAt_showOne (h : FailsAt M (each f ns) w k e) : FailsAt M (each (showOne f) ns) w k e := by
  refine ⟨(succeeds_showOne hf).mpr h.1, ?_⟩
  rw [result_showOne hf, h.2]
  rfl

end

/-! ## The sockets of a target -/

theorem runs_sockets_socket {r : Except Error (List Nat)} :
    Runs M (sockets s (.socket n)) w es r u ↔ es = [] ∧ r = .ok [n] ∧ u = w := runs_pure

theorem runs_sockets_all {r : Except Error (List Nat)} : Runs M (sockets s .all) w es r u ↔
    ∃ x, Runs M (s.gate none) w es x u ∧ r = x.map fun inv => List.range inv.topology.socketCount := by
  constructor
  · intro h
    obtain ⟨e, rfl, hgate⟩ | ⟨gs, hs, inv, v, rfl, hgate, hrange⟩ := runs_bind.mp h
    · exact ⟨.error e, hgate, rfl⟩
    · obtain ⟨rfl, rfl, rfl⟩ := runs_pure.mp hrange
      rw [List.append_nil]
      exact ⟨.ok inv, hgate, rfl⟩
  · intro h
    obtain ⟨x, hgate, rfl⟩ := h
    cases x with
    | error e => exact runs_bind.mpr (.inl ⟨e, rfl, hgate⟩)
    | ok inv => exact runs_bind_ok.mpr ⟨es, [], inv, u, (List.append_nil es).symm, hgate, runs_pure.mpr ⟨rfl, rfl, rfl⟩⟩

theorem sockets_silent (s : Session) (t : Target) : Job.Only (·.isPrint = false) (sockets s t) := by
  have hassembled : Assembled s (fun _ => True) (sockets s t) := by
    cases t with
    | socket n => exact .lift (.ok [n])
    | all => exact .bind (.gate none) fun inv => .lift (.ok _)
  exact hassembled.silent

theorem sockets_ascend {t : Target} (h : Runs M (sockets s t) w es (.ok ns) u) : ns.Pairwise (· < ·) := by
  cases t with
  | socket n =>
    obtain ⟨-, hns, -⟩ := runs_sockets_socket.mp h
    cases hns
    exact List.pairwise_singleton ..
  | all =>
    obtain ⟨x, -, hns⟩ := runs_sockets_all.mp h
    cases x with
    | error e => cases hns
    | ok inv =>
      cases hns
      exact List.pairwise_lt_range

/-! ## What the commands come to -/

/-- A command that reads each of these sockets once it found out which they are, with events `es` and in world
    `u`. It is told by the readings alone, in worlds in which nothing was printed between them. -/
structure Shows (M : Machine μ) (j : Job Unit) (f : Nat → Job String) (ns : List Nat) (w : World μ)
    (es : List Event) (u : World μ) : Prop where
  ok_iff : (World.run M j w).1 = .ok () ↔ Succeeds M (each f ns) u ns.length
  /-- With no failure, each socket has its line, in order. -/
  whole : Succeeds M (each f ns) u ns.length →
    Runs M j w (es ++ shownTrace M f ns u ns.length) (.ok ())
      ((Series.world M (each f ns) u ns.length).printed (lines M f ns u ns.length))
  /-- The first failure is the last that happens. The lines are those of the sockets before it. -/
  stops : ∀ k < ns.length, ∀ e, FailsAt M (each f ns) u k e →
    Runs M j w (es ++ (shownTrace M f ns u k ++ Series.events M (each f ns) u k)) (.error e)
      ((Series.world M (each f ns) u (k + 1)).printed (lines M f ns u k))
  silent : ∀ k, (Series.world M (each f ns) u k).memory.output = w.memory.output

/-- A command that changes something of each of these sockets before it goes on with `next`. -/
structure Sets (M : Machine μ) (j : Job Unit) (act : Nat → Job Unit) (next : Job Unit) (ns : List Nat)
    (w : World μ) (es : List Event) (u : World μ) : Prop where
  /-- With no failure, every socket has had its change before anything else. -/
  whole : Succeeds M (each act ns) u ns.length →
    ∀ fs r v, Runs M next (Series.world M (each act ns) u ns.length) fs r v →
      Runs M j w (es ++ (Series.trace M (each act ns) u ns.length ++ fs)) r v
  /-- The first failure is the last that happens, and nothing is printed. -/
  stops : ∀ k < ns.length, ∀ e, FailsAt M (each act ns) u k e →
    Runs M j w (es ++ Series.trace M (each act ns) u (k + 1)) (.error e) (Series.world M (each act ns) u (k + 1))
  silent : ∀ k, (Series.world M (each act ns) u k).memory.output = w.memory.output

theorem output_world {α : Type} {f : Nat → Job α} (hf : ∀ n, Job.Only (·.isPrint = false) (f n)) (k : Nat) :
    (Series.world M (each f ns) w k).memory.output = w.memory.output := by
  induction k with
  | zero => rfl
  | succ k ih => exact ((Series.runs (M := M) (f := each f ns) (w := w) k).output (hf _)).trans ih

/-- Which sockets they are is found out first. -/
theorem runs_over {t : Target} {loop : List Nat → Job Unit} {r : Except Error Unit}
    (h : Runs M (sockets s t) w es (.ok ns) u) (hloop : Runs M (loop ns) u fs r v) :
    Runs M (sockets s t >>= loop) w (es ++ fs) r v :=
  runs_bind.mpr (.inr ⟨es, fs, ns, u, rfl, h, hloop⟩)

theorem shows {t : Target} {f : Nat → Job String} (hf : ∀ n, Job.Only (·.isPrint = false) (f n))
    (h : Runs M (sockets s t) w es (.ok ns) u) :
    Shows M (sockets s t >>= forEach (showOne f)) f ns w es u := by
  have hwhole : Succeeds M (each f ns) u ns.length →
      Runs M (sockets s t >>= forEach (showOne f)) w (es ++ shownTrace M f ns u ns.length) (.ok ())
        ((Series.world M (each f ns) u ns.length).printed (lines M f ns u ns.length)) := fun hall => by
    have hloop := runs_forEach_ok ((succeeds_showOne hf).mpr hall)
    rw [trace_showOne hf, world_showOne hf] at hloop
    exact runs_over h hloop
  have hstops : ∀ k < ns.length, ∀ e, FailsAt M (each f ns) u k e →
      Runs M (sockets s t >>= forEach (showOne f)) w
        (es ++ (shownTrace M f ns u k ++ Series.events M (each f ns) u k)) (.error e)
        ((Series.world M (each f ns) u (k + 1)).printed (lines M f ns u k)) := fun k hk e hfail => by
    have hloop := runs_forEach_error hk (failsAt_showOne hf hfail)
    have htrace : shownTrace M f ns u (k + 1) = shownTrace M f ns u k ++ Series.events M (each f ns) u k := by
      simp [shownTrace, List.range_succ, hfail.2, said]
    have hlines : lines M f ns u (k + 1) = lines M f ns u k := by
      simp [lines, List.range_succ, hfail.2, said]
    rw [trace_showOne hf, world_showOne hf, htrace, hlines] at hloop
    exact runs_over h hloop
  refine ⟨⟨fun hok => ?_, fun hall => by rw [(hwhole hall).run]⟩, hwhole, hstops, fun k => ?_⟩
  · cases succeeds_or_fails (M := M) (f := each f ns) (w := u) ns.length with
    | inl hall => exact hall
    | inr hfails =>
      obtain ⟨k, hk, e, hfail⟩ := hfails
      rw [(hstops k hk e hfail).run] at hok
      cases hok
  · exact (output_world hf k).trans (h.output (sockets_silent s t))

theorem sets {t : Target} {act : Nat → Job Unit} (hact : ∀ n, Job.Only (·.isPrint = false) (act n))
    (h : Runs M (sockets s t) w es (.ok ns) u) (next : Job Unit) :
    Sets M (sockets s t >>= fun ns => forEach act ns >>= fun _ => next) act next ns w es u where
  whole hall fs _ _ hnext :=
    runs_over h (runs_bind.mpr (.inr ⟨_, fs, (), _, rfl, runs_forEach_ok hall, hnext⟩))
  stops _ hk e hfail := runs_over h (runs_bind.mpr (.inl ⟨e, rfl, runs_forEach_error hk hfail⟩))
  silent k := (output_world hact k).trans (h.output (sockets_silent s t))

theorem display_assembled (s : Session) (n : Nat) (what : Reading) :
    Assembled s Message.Fits (display s n what) := by
  cases what
  case fabricClocks => exact .bind (s.fabricClocks_exchanged n).assembled fun _ => .lift (.ok _)
  case procHot => exact .bind (s.procHot_exchanged n).assembled fun _ => .lift (.ok _)
  case ddrBandwidth => exact .bind (s.ddrBandwidth_exchanged n).assembled fun _ => .lift (.ok _)
  all_goals exact .bind (s.readWord_exchanged n rfl rfl).assembled fun _ => .lift (.ok _)

theorem setPowerLimit_assembled (s : Session) (n : Nat) (limit : UInt32) :
    Assembled s Message.Fits (s.setPowerLimit n limit) :=
  .bind (.exchange n ⟨rfl, rfl⟩) fun _ => .lift (.ok ())

/-- What the commands come to that go from socket to socket. -/
structure GoesOver (M : Machine μ) (s : Session) (w : World μ) : Prop where
  /-- One socket is found without a look at the machine, -/
  one : ∀ n es r u, Runs M (sockets s (.socket n)) w es r u ↔ es = [] ∧ r = .ok [n] ∧ u = w
  /-- and all of them behind the gate. -/
  all : ∀ es r u, Runs M (sockets s .all) w es r u ↔
    ∃ x, Runs M (s.gate none) w es x u ∧ r = x.map fun inv => List.range inv.topology.socketCount
  ascending : ∀ t es ns u, Runs M (sockets s t) w es (.ok ns) u → ns.Pairwise (· < ·)
  /-- If the sockets cannot be found, that is all, and nothing is printed. -/
  unresolved : ∀ t es e u, Runs M (sockets s t) w es (.error e) u → u.memory.output = w.memory.output ∧
    (∀ what, Runs M (run s (.read what t)) w es (.error e) u) ∧
    (∀ limit, Runs M (run s (.setPowerLimit t limit)) w es (.error e) u) ∧
    ∀ name p, FabricState.ofName? name = some p → Runs M (run s (.fabricState t name)) w es (.error e) u
  reads : ∀ t es ns u, Runs M (sockets s t) w es (.ok ns) u → ∀ what,
    Shows M (run s (.read what t)) (fun n => display s n what) ns w es u
  /-- The limits are read back as if they were asked for after the last was set. -/
  limits : ∀ t es ns u, Runs M (sockets s t) w es (.ok ns) u → ∀ limit,
    Sets M (run s (.setPowerLimit t limit)) (fun n => s.setPowerLimit n limit) (run s (.read .powerLimit t)) ns w es u
  states : ∀ t es ns u, Runs M (sockets s t) w es (.ok ns) u → ∀ name p, FabricState.ofName? name = some p →
    Sets M (run s (.fabricState t name)) (fun n => s.setFabricState n p) (pure ()) ns w es u

/-- The job ends at once and asks for nothing. -/
def RefusedAtOnce (M : Machine μ) (w : World μ) (j : Job Unit) (why : Misuse) : Prop :=
  Runs M j w [] (.error (.invalidArgument why)) w

/-- Names that are none are refused before anything is asked of the machine, and so is a number of widths that
    is none. -/
structure RefusesNames (M : Machine μ) (s : Session) (w : World μ) : Prop where
  state : ∀ t name, FabricState.ofName? name = none →
    RefusedAtOnce M w (run s (.fabricState t name)) (.unknownName "DF P-state" name)
  interface : ∀ bus name, InterfaceState.ofName? name = none →
    RefusedAtOnce M w (run s (.interfaceState bus name)) (.unknownName "NBIO P-state" name)
  low : ∀ lo hi, LinkWidth.ofName? lo = none →
    RefusedAtOnce M w (run s (.linkWidth [lo, hi])) (.unknownName "xGMI width" lo)
  high : ∀ lo hi min, LinkWidth.ofName? lo = some min → LinkWidth.ofName? hi = none →
    RefusedAtOnce M w (run s (.linkWidth [lo, hi])) (.unknownName "xGMI width" hi)
  usage : ∀ widths, widths ≠ ["auto"] → widths.length ≠ 2 →
    RefusedAtOnce M w (run s (.linkWidth widths)) .widthUsage

theorem goesOver (M : Machine μ) (s : Session) (w : World μ) : GoesOver M s w where
  one _ _ _ _ := runs_sockets_socket
  all _ _ _ := runs_sockets_all
  ascending _ _ _ _ h := sockets_ascend h
  unresolved t es e u h := by
    have hends : ∀ loop : List Nat → Job Unit, Runs M (sockets s t >>= loop) w es (.error e) u :=
      fun loop => runs_bind.mpr (.inl ⟨e, rfl, h⟩)
    refine ⟨h.output (sockets_silent s t), fun what => hends _, fun limit => hends _, fun name p hp => ?_⟩
    rw [run, setFabric, hp]
    exact hends _
  reads _ _ _ _ h what := shows (fun n => (display_assembled s n what).silent) h
  limits _ _ _ _ h limit := sets (fun n => (setPowerLimit_assembled s n limit).silent) h _
  states t es ns u h name p hp := by
    have hsets := sets (fun n => (s.setFabricState_assembled n p).silent) h (pure ())
    simp only [bind_pure_unit] at hsets
    rw [run, setFabric, hp]
    exact hsets

theorem refusesNames (M : Machine μ) (s : Session) (w : World μ) : RefusesNames M s w := by
  have hthrow : ∀ why : Misuse, RefusedAtOnce M w (throw (.invalidArgument why)) why :=
    fun why => runs_throw.mpr ⟨rfl, rfl, rfl⟩
  refine ⟨fun t name hname => ?_, fun bus name hname => ?_, fun lo hi hlo => ?_, fun lo hi min hlo hhi => ?_,
    fun widths hauto hlen => ?_⟩
  · rw [run, setFabric, hname]
    exact hthrow _
  · rw [run, setInterface, hname]
    exact hthrow _
  · rw [run, setWidths, hlo]
    exact hthrow _
  · rw [run, setWidths, hlo, hhi]
    exact hthrow _
  · rw [run, setWidths]
    · exact hthrow _
    · exact hauto
    · intro lo hi h
      subst h
      exact hlen rfl

/-- In every session on every machine, whatever happened before. -/
theorem socket_commands_in_step (M : Machine μ) (s : Session) (w : World μ) :
    GoesOver M s w ∧ RefusesNames M s w :=
  ⟨goesOver M s w, refusesNames M s w⟩

/-- A process that knows the crossed machine, whose second socket does not answer any more. -/
def halfHung : World Simulation.State where
  machine := hangSecond Simulation.sound
  memory := { inventory := some ⟨Simulation.sound.processor, Topology.crossedTable, Simulation.sound.cpus, ⟨{}, 3⟩⟩ }

/-- To see that the first socket succeeds, it is enough to look at its result. -/
theorem succeeds_one {α : Type} {f : Nat → Job α} (h : (Series.result M f w 0).toOption.isSome = true) :
    Succeeds M f w 1 := by
  intro i hi
  obtain rfl := Nat.lt_one_iff.mp hi
  cases hr : Series.result M f w 0 with
  | ok a => exact ⟨a, rfl⟩
  | error e =>
    rw [hr] at h
    cases h

theorem failsAt_one {α : Type} {f : Nat → Job α} (hfirst : (Series.result M f w 0).toOption.isSome = true)
    (hsecond : (Series.result M f w 1).toOption.isSome = false) : ∃ e, FailsAt M f w 1 e := by
  cases hr : Series.result M f w 1 with
  | ok a =>
    rw [hr] at hsecond
    cases hsecond
  | error e => exact ⟨e, succeeds_one hfirst, hr⟩

/-- The power of the first socket is shown before that of the second cannot be read. A limit for both and a
    state for both reach the first, and nothing is shown. A limit for the first alone is read back. -/
theorem socket_commands_halfHung :
    let s : Session := ⟨Simulation.config⟩
    (∃ (e : Error) (u : World Simulation.State), World.run Simulation.machine (run s (.read .power .all)) halfHung =
      (.error e, u.printed ["socket 0: 95000 mW\n"]) ∧ u.memory.output = "") ∧
    (∃ (e : Error) (u : World Simulation.State),
      World.run Simulation.machine (run s (.setPowerLimit .all 150000)) halfHung = (.error e, u) ∧
        u.memory.output = "" ∧ u.machine.sockets.map (·.firmware.powerLimit) = [150000, 200000]) ∧
    (∃ (e : Error) (u : World Simulation.State),
      World.run Simulation.machine (run s (.fabricState .all "1")) halfHung = (.error e, u) ∧
        u.memory.output = "" ∧ u.machine.sockets.map (·.firmware.fabricState) = [some 1, none]) ∧
    ∃ u : World Simulation.State, World.run Simulation.machine (run s (.setPowerLimit (.socket 0) 150000)) halfHung =
      (.ok (), u.printed ["socket 0: 150000 mW\n"]) ∧ u.memory.output = "" := by
  intro s
  have hadmits : Admits Simulation.machine _ halfHung := ⟨rfl, rfl, rfl⟩
  have hall : Runs Simulation.machine (sockets s .all) halfHung _ (.ok [0, 1]) halfHung :=
    ⟨run_bind_ok (hadmits.run_gate s), rfl⟩
  have hgoes := (socket_commands_in_step Simulation.machine s halfHung).1
  refine ⟨?_, ?_, ?_, ?_⟩
  · have hshows := hgoes.reads .all _ _ _ hall .power
    obtain ⟨e, hfails⟩ : ∃ e, FailsAt Simulation.machine (each (display s · .power) [0, 1]) halfHung 1 e :=
      failsAt_one (by decide +kernel) (by decide +kernel)
    have hlines : lines Simulation.machine (display s · .power) [0, 1] halfHung 1 = ["socket 0: 95000 mW\n"] := by
      decide +kernel
    have hrun := (hshows.stops 1 (by decide) e hfails).run
    rw [hlines] at hrun
    exact ⟨e, _, hrun, hshows.silent (1 + 1)⟩
  · have hsets := hgoes.limits .all _ _ _ hall 150000
    obtain ⟨e, hfails⟩ : ∃ e, FailsAt Simulation.machine (each (s.setPowerLimit · 150000) [0, 1]) halfHung 1 e :=
      failsAt_one (by decide +kernel) (by decide +kernel)
    exact ⟨e, _, (hsets.stops 1 (by decide) e hfails).run, hsets.silent (1 + 1), by decide +kernel⟩
  · have hsets := hgoes.states .all _ _ _ hall "1" .p1 (by decide +kernel)
    obtain ⟨e, hfails⟩ : ∃ e, FailsAt Simulation.machine (each (s.setFabricState · .p1) [0, 1]) halfHung 1 e :=
      failsAt_one (by decide +kernel) (by decide +kernel)
    exact ⟨e, _, (hsets.stops 1 (by decide) e hfails).run, hsets.silent (1 + 1), by decide +kernel⟩
  · have hone : ∀ v, Runs Simulation.machine (sockets s (.socket 0)) v [] (.ok [0]) v :=
      fun _ => runs_sockets_socket.mpr ⟨rfl, rfl, rfl⟩
    have hsets := hgoes.limits (.socket 0) _ _ _ (hone _) 150000
    -- the limit is read back where it has been set
    have hback := (socket_commands_in_step Simulation.machine s
      (Series.world Simulation.machine (each (s.setPowerLimit · 150000) [0]) halfHung 1)).1
    have hshows := hback.reads (.socket 0) _ _ _ (hone _) .powerLimit
    have hread := hshows.whole (succeeds_one (by decide +kernel))
    have hlines : lines Simulation.machine (display s · .powerLimit) [0]
        (Series.world Simulation.machine (each (s.setPowerLimit · 150000) [0]) halfHung 1) 1 =
          ["socket 0: 150000 mW\n"] := by
      decide +kernel
    have hrun := (hsets.whole (succeeds_one (by decide +kernel)) _ _ _ hread).run
    rw [List.length_singleton, hlines] at hrun
    exact ⟨_, hrun, (hshows.silent 1).trans (hsets.silent 1)⟩

end Command

end FirmwareMailbox
