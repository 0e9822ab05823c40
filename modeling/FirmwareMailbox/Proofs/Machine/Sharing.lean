/-
  FirmwareMailbox.Proofs.Machine.Sharing — processes that share a machine.

  Each process has a memory of its own and tasks, which it does one after the other: it discovers the
  tiles, or it sends a message. One step is one request of one process, so that any other may come
  between two accesses to a device. The lock is exclusive: who asks for it while somebody has it waits,
  and its step changes nothing. Discovery does not ask for the lock.

  Beside it stands the same sending in turn (`Turns`): messages are sent whole, one after the other, and
  nobody discovers anything.
-/

import FirmwareMailbox.Proofs.Message.Locking
import Mathlib.Logic.Function.Basic

namespace FirmwareMailbox

/-- The lock was asked for and granted. -/
def Event.grantsLock : Event → Bool
  | ⟨.lock _, .ok _⟩ => true
  | _ => false

def Event.freesLock : Event → Bool
  | ⟨.unlock _, _⟩ => true
  | _ => false

theorem Event.not_locking {e : Event} (h : e.request.isLocking = false) :
    e.grantsLock = false ∧ e.freesLock = false := by
  obtain ⟨q, x⟩ := e
  cases q
  case lock | unlock => cases h
  all_goals exact ⟨rfl, rfl⟩

def Request.asksLock : Request → Bool
  | .lock _ => true
  | _ => false

theorem Request.not_asksLock {q : Request} (h : q.isLocking = false) : q.asksLock = false := by
  cases q
  case lock => cases h
  all_goals rfl

inductive Task where
  | discover
  | send (s : Sending)

/-- The messages among some tasks. -/
def sendings : List Task → List Sending
  | [] => []
  | .discover :: rest => sendings rest
  | .send s :: rest => s :: sendings rest

/-- What a process is in the middle of, with what is left of it. -/
inductive Doing where
  | nothing
  | discovering (p : Program (Except Error Topology))
  | sending (s : Sending) (p : Program (Except Error (List UInt32)))

structure Process where
  memory : Memory := {}
  left : List Task := []
  doing : Doing := .nothing
  /-- What came of its discoveries and messages so far. -/
  tables : List (Except Error Topology) := []
  responses : List (Except Error (List UInt32)) := []

/-- Processes at one machine. -/
structure Crew (ι μ : Type) where
  machine : μ
  process : ι → Process
  /-- Who is between taking the lock and giving it back. -/
  holder : Option ι := none
  /-- Who was given the lock, one after the other. -/
  acquired : List ι := []

/-- The same processes when they only send, and take turns. -/
structure Turns (ι μ : Type) where
  machine : μ
  memory : ι → Memory
  left : ι → List Sending
  responses : ι → List (Except Error (List UInt32)) := fun _ => []
  acquired : List ι := []

variable {ι μ : Type} [DecidableEq ι]

namespace Crew

def put (i : ι) (p : Process) (c : Crew ι μ) : Crew ι μ :=
  { c with process := Function.update c.process i p }

/-- Process `i` after the reply to a request, and all that goes with it. -/
def answered (i : ι) (e : Event) (w : World μ) (next : Doing) (c : Crew ι μ) : Crew ι μ :=
  { machine := w.machine
    process := Function.update c.process i { c.process i with memory := w.memory, doing := next }
    holder := if e.grantsLock then some i else if e.freesLock then none else c.holder
    acquired := if e.grantsLock then c.acquired ++ [i] else c.acquired }

@[simp] theorem put_process (i : ι) (p : Process) (c : Crew ι μ) : (c.put i p).process i = p :=
  Function.update_self ..

@[simp] theorem answered_process (i : ι) (e : Event) (w : World μ) (next : Doing) (c : Crew ι μ) :
    (c.answered i e w next).process i = { c.process i with memory := w.memory, doing := next } :=
  Function.update_self ..

/-- A reply that has nothing to do with the lock leaves it where it is. -/
theorem answered_same {i : ι} {e : Event} {w : World μ} {d : Doing} {c : Crew ι μ}
    (h : e.request.isLocking = false) :
    (c.answered i e w d).holder = c.holder ∧ (c.answered i e w d).acquired = c.acquired := by
  obtain ⟨hg, hf⟩ := Event.not_locking h
  simp only [answered, hg, hf, Bool.false_eq_true, if_false, and_self]

/-- A step of process `i`: it begins or ends a task, or makes a request. -/
def step (M : Machine μ) (discovery : Job Topology) (i : ι) (c : Crew ι μ) : Crew ι μ :=
  let p := c.process i
  match p.doing with
  | .nothing =>
    match p.left with
    | [] => c
    | .discover :: rest => c.put i { p with left := rest, doing := .discovering discovery.run }
    | .send s :: rest => c.put i { p with left := rest, doing := .sending s s.job.run }
  | .discovering (.done t) => c.put i { p with doing := .nothing, tables := p.tables ++ [t] }
  | .discovering (.ask q next) =>
    let a := World.answer M q ⟨c.machine, p.memory⟩
    c.answered i ⟨q, a.1⟩ a.2 (.discovering (next a.1))
  | .sending _ (.done r) => c.put i { p with doing := .nothing, responses := p.responses ++ [r] }
  | .sending s (.ask q next) =>
    if q.asksLock && c.holder.isSome then c
    else
      let a := World.answer M q ⟨c.machine, p.memory⟩
      c.answered i ⟨q, a.1⟩ a.2 (.sending s (next a.1))

section

variable {M : Machine μ} {discovery : Job Topology} {i : ι} {c : Crew ι μ}

theorem step_rest (hd : (c.process i).doing = .nothing) (hl : (c.process i).left = []) :
    c.step M discovery i = c := by
  simp only [step, hd, hl]

theorem step_discover {rest : List Task} (hd : (c.process i).doing = .nothing)
    (hl : (c.process i).left = .discover :: rest) : c.step M discovery i =
      c.put i { c.process i with left := rest, doing := .discovering discovery.run } := by
  simp only [step, hd, hl]

theorem step_send {s : Sending} {rest : List Task} (hd : (c.process i).doing = .nothing)
    (hl : (c.process i).left = .send s :: rest) : c.step M discovery i =
      c.put i { c.process i with left := rest, doing := .sending s s.job.run } := by
  simp only [step, hd, hl]

theorem step_table {x : Except Error Topology} (hd : (c.process i).doing = .discovering (.done x)) :
    c.step M discovery i =
      c.put i { c.process i with doing := .nothing, tables := (c.process i).tables ++ [x] } := by
  simp only [step, hd]

theorem step_look {q : Request} {next : q.Reply → Program (Except Error Topology)}
    (hd : (c.process i).doing = .discovering (.ask q next)) : c.step M discovery i =
      let a := World.answer M q ⟨c.machine, (c.process i).memory⟩
      c.answered i ⟨q, a.1⟩ a.2 (.discovering (next a.1)) := by
  simp only [step, hd]

theorem step_response {s : Sending} {x : Except Error (List UInt32)}
    (hd : (c.process i).doing = .sending s (.done x)) : c.step M discovery i =
      c.put i { c.process i with doing := .nothing, responses := (c.process i).responses ++ [x] } := by
  simp only [step, hd]

theorem step_wait {s : Sending} {q : Request} {next : q.Reply → Program (Except Error (List UInt32))}
    (hd : (c.process i).doing = .sending s (.ask q next)) (hq : q.asksLock = true)
    (hh : c.holder.isSome = true) : c.step M discovery i = c := by
  simp only [step, hd, hq, hh, Bool.and_self, if_true]

theorem step_ask {s : Sending} {q : Request} {next : q.Reply → Program (Except Error (List UInt32))}
    (hd : (c.process i).doing = .sending s (.ask q next))
    (hq : ¬ (q.asksLock = true ∧ c.holder.isSome = true)) : c.step M discovery i =
      let a := World.answer M q ⟨c.machine, (c.process i).memory⟩
      c.answered i ⟨q, a.1⟩ a.2 (.sending s (next a.1)) := by
  simp only [step, hd, Bool.and_eq_true, if_neg hq]

end

/-- The steps of a schedule, which says whose step is next. -/
def run (M : Machine μ) (discovery : Job Topology) (schedule : List ι) (c : Crew ι μ) : Crew ι μ :=
  schedule.foldl (fun c i => c.step M discovery i) c

/-- Nobody has begun. -/
def start (m : μ) (memory : ι → Memory) (tasks : ι → List Task) : Crew ι μ :=
  { machine := m, process := fun i => { memory := memory i, left := tasks i } }

end Crew

namespace Turns

/-- Process `i` sends its next message. -/
def take (M : Machine μ) (i : ι) (t : Turns ι μ) : Turns ι μ :=
  match t.left i with
  | [] => t
  | s :: rest =>
    let a := World.run M s.job ⟨t.machine, t.memory i⟩
    { machine := a.2.machine
      memory := Function.update t.memory i a.2.memory
      left := Function.update t.left i rest
      responses := Function.update t.responses i (t.responses i ++ [a.1])
      acquired := if (World.transcript M s.job ⟨t.machine, t.memory i⟩).any Event.grantsLock
        then t.acquired ++ [i] else t.acquired }

theorem take_next {M : Machine μ} {i : ι} {t : Turns ι μ} {s : Sending} {rest : List Sending}
    (hl : t.left i = s :: rest) : t.take M i =
      let a := World.run M s.job ⟨t.machine, t.memory i⟩
      { machine := a.2.machine
        memory := Function.update t.memory i a.2.memory
        left := Function.update t.left i rest
        responses := Function.update t.responses i (t.responses i ++ [a.1])
        acquired := if (World.transcript M s.job ⟨t.machine, t.memory i⟩).any Event.grantsLock
          then t.acquired ++ [i] else t.acquired } := by
  simp only [take, hl]

/-- Nobody else notices. -/
theorem take_other (M : Machine μ) {i j : ι} (hi : i ≠ j) (t : Turns ι μ) :
    (t.take M j).memory i = t.memory i ∧ (t.take M j).left i = t.left i ∧
      (t.take M j).responses i = t.responses i := by
  unfold take
  split
  · exact ⟨rfl, rfl, rfl⟩
  · exact ⟨Function.update_of_ne hi .., Function.update_of_ne hi .., Function.update_of_ne hi ..⟩

def run (M : Machine μ) (order : List ι) (t : Turns ι μ) : Turns ι μ :=
  order.foldl (fun t i => t.take M i) t

theorem run_append (M : Machine μ) (first rest : List ι) (t : Turns ι μ) :
    t.run M (first ++ rest) = (t.run M first).run M rest :=
  List.foldl_append ..

def start (m : μ) (memory : ι → Memory) (tasks : ι → List Task) : Turns ι μ :=
  { machine := m, memory := memory, left := fun i => sendings (tasks i) }

end Turns

end FirmwareMailbox
