/-
  FirmwareMailbox.Proofs.Register.Access — the accesses through a window, as events.

  A read or write of a register that works is two events: the address goes to the index register,
  the word comes from or goes to the data register (`Aperture.loaded`, `Aperture.stored`). An access
  that fails ends what it is part of. So a run that failed at a device has the events of some run
  that did not, up to one that fails and is the last (`Cut`).

  The index register decides which register the data register stands for. Whoever only sees the
  events finds the registers again by following it (`Aperture.seen`).
-/

import FirmwareMailbox.Proofs.Program.Runs
import FirmwareMailbox.Register.Aperture

namespace FirmwareMailbox

namespace Event

/-- An access to the configuration space of a device. -/
def isAccess (e : Event) : Bool :=
  match e.request with
  | .read .. | .write .. => true
  | _ => false

/-- How an access failed. -/
def error? : Event → Option Error
  | ⟨.read .., .error e⟩ => some e
  | ⟨.write .., .error e⟩ => some e
  | _ => none

theorem isAccess_of_error? {x : Event} {e : Error} (h : x.error? = some e) : x.isAccess = true := by
  rcases x with ⟨r, y⟩
  cases r <;> first | rfl | cases h

end Event

/-- `es` is `full` up to an access that fails with `e` and is the last event. -/
def Cut (es full : List Event) (e : Error) : Prop :=
  ∃ pre x y rest, full = pre ++ x :: rest ∧ es = pre ++ [y] ∧ y.request = x.request ∧
    y.error? = some e

namespace Cut

variable {es full : List Event} {e : Error}

theorem append (h : Cut es full e) (more : List Event) : Cut es (full ++ more) e := by
  obtain ⟨pre, x, y, rest, rfl, rfl, hr, he⟩ := h
  exact ⟨pre, x, y, rest ++ more, by simp, rfl, hr, he⟩

theorem prepend (before : List Event) (h : Cut es full e) : Cut (before ++ es) (before ++ full) e := by
  obtain ⟨pre, x, y, rest, rfl, rfl, hr, he⟩ := h
  exact ⟨before ++ pre, x, y, rest, by simp, by simp, hr, he⟩

theorem filter_isAccess (h : Cut es full e) :
    Cut (es.filter Event.isAccess) (full.filter Event.isAccess) e := by
  obtain ⟨pre, x, y, rest, rfl, rfl, hr, he⟩ := h
  have hy := Event.isAccess_of_error? he
  have hx : x.isAccess = true := by rw [← hy]; simp only [Event.isAccess, hr]
  exact ⟨pre.filter Event.isAccess, x, y, rest.filter Event.isAccess, by simp [hx], by simp [hy], hr, he⟩

/-- What is no access is in the cut run only if it is in the whole one. -/
theorem mem_of_not_isAccess (h : Cut es full e) {x : Event} (hx : x ∈ es) (ha : x.isAccess = false) :
    x ∈ full := by
  obtain ⟨pre, y, z, rest, rfl, rfl, -, he⟩ := h
  rcases List.mem_append.mp hx with hx | hx
  · exact List.mem_append_left _ hx
  · obtain rfl := List.mem_singleton.mp hx
    rw [Event.isAccess_of_error? he] at ha
    cases ha

theorem exists_error (h : Cut es full e) : ∃ x ∈ es, x.error? = some e := by
  obtain ⟨pre, x, y, rest, rfl, rfl, -, he⟩ := h
  exact ⟨y, by simp, he⟩

/-- If whole runs work, a failed access in the cut one is the last event and is what cut it. -/
theorem eq_of_error? (h : Cut es full e) (hw : ∀ x ∈ full, x.error? = none) {before after : List Event}
    {x : Event} {f : Error} (hs : es = before ++ x :: after) (hx : x.error? = some f) :
    after = [] ∧ f = e := by
  obtain ⟨pre, y, z, rest, rfl, rfl, -, hz⟩ := h
  rcases List.eq_nil_or_concat after with rfl | ⟨l, b, rfl⟩
  · obtain ⟨-, hzx⟩ := List.append_inj' hs rfl
    obtain rfl := (List.cons.inj hzx).1
    rw [hz] at hx
    exact ⟨rfl, (Option.some.inj hx).symm⟩
  · rw [List.concat_eq_append, ← List.cons_append, ← List.append_assoc] at hs
    obtain ⟨rfl, -⟩ := List.append_inj' hs rfl
    have hn := hw x (by simp)
    rw [hx] at hn
    cases hn

/-- Writes before a job: it is cut at one of them, or it goes on after all of them. -/
theorem yields_after {α : Type} {j : Job Unit} {k : Unit → Job α} {r : Except Error α}
    (hj : ∀ {fs : List Event} {x : Except Error Unit}, Job.Yields j fs x →
      (x = .ok () ∧ fs = full) ∨ ∃ e, x = .error e ∧ Cut fs full e)
    (h : Job.Yields (j >>= k) es r) :
    (∃ e, r = .error e ∧ Cut es full e) ∨ ∃ gs, es = full ++ gs ∧ Job.Yields (k ()) gs r := by
  rcases Job.yields_bind.mp h with ⟨e, rfl, hw⟩ | ⟨fs, gs, _, rfl, hw, hr⟩
  · rcases hj hw with ⟨he, -⟩ | ⟨e', he, hc⟩
    · cases he
    · cases he
      exact Or.inl ⟨e, rfl, hc⟩
  · rcases hj hw with ⟨-, rfl⟩ | ⟨e', he, -⟩
    · exact Or.inr ⟨gs, rfl, hr⟩
    · cases he

end Cut

namespace Aperture

variable (a : Aperture) (d : DeviceHandle)

/-- The events of a read that finds the word `w`. -/
def loaded (address w : UInt32) : List Event :=
  [⟨.write d a.index address, .ok ()⟩, ⟨.read d a.data, .ok w⟩]

/-- The events of a write. -/
def stored (address v : UInt32) : List Event :=
  [⟨.write d a.index address, .ok ()⟩, ⟨.write d a.data v, .ok ()⟩]

variable {a d} {es : List Event}

theorem yields_read {x : UInt32} {r : Except Error UInt32} (h : Job.Yields (a.read d x) es r) :
    (∃ w, r = .ok w ∧ es = a.loaded d x w) ∨
      ∃ e, r = .error e ∧ ∀ w, Cut es (a.loaded d x w) e := by
  rcases Job.yields_bind.mp h with ⟨e, rfl, hw⟩ | ⟨fs, gs, _, rfl, hw, hr⟩
  · obtain rfl := Job.yields_write.mp hw
    exact Or.inr ⟨e, rfl, fun w => ⟨[], _, _, _, rfl, rfl, rfl, rfl⟩⟩
  · obtain rfl := Job.yields_write.mp hw
    obtain rfl := Job.yields_read.mp hr
    cases r with
    | ok w => exact Or.inl ⟨w, rfl, rfl⟩
    | error e => exact Or.inr ⟨e, rfl, fun w => ⟨[_], _, _, [], rfl, rfl, rfl, rfl⟩⟩

/-- A read before a job: it is cut, or the job goes on from the word. -/
theorem yields_read_bind {α : Type} {x : UInt32} {k : UInt32 → Job α} {r : Except Error α}
    (h : Job.Yields (a.read d x >>= k) es r) :
    (∃ e, r = .error e ∧ ∀ w, Cut es (a.loaded d x w) e) ∨
      ∃ w gs, es = a.loaded d x w ++ gs ∧ Job.Yields (k w) gs r := by
  rcases Job.yields_bind.mp h with ⟨e, rfl, hw⟩ | ⟨fs, gs, w, rfl, hw, hr⟩
  · rcases yields_read hw with ⟨_, he, -⟩ | ⟨e', he, hc⟩
    · cases he
    · cases he
      exact Or.inl ⟨e, rfl, hc⟩
  · rcases yields_read hw with ⟨_, he, rfl⟩ | ⟨e', he, -⟩
    · cases he
      exact Or.inr ⟨w, gs, rfl, hr⟩
    · cases he

theorem yields_write {x v : UInt32} {r : Except Error Unit} (h : Job.Yields (a.write d x v) es r) :
    (r = .ok () ∧ es = a.stored d x v) ∨ ∃ e, r = .error e ∧ Cut es (a.stored d x v) e := by
  rcases Job.yields_bind.mp h with ⟨e, rfl, hw⟩ | ⟨fs, gs, _, rfl, hw, hr⟩
  · obtain rfl := Job.yields_write.mp hw
    exact Or.inr ⟨e, rfl, [], _, _, _, rfl, rfl, rfl, rfl⟩
  · obtain rfl := Job.yields_write.mp hw
    obtain rfl := Job.yields_write.mp hr
    cases r with
    | ok _ => exact Or.inl ⟨rfl, rfl⟩
    | error e => exact Or.inr ⟨e, rfl, [_], _, _, [], rfl, rfl, rfl, rfl⟩

/-! ## Which registers -/

end Aperture

/-- An access to a register that worked. -/
inductive Register.Access
  | load (address word : UInt32)
  | store (address value : UInt32)
  deriving DecidableEq, Repr

namespace Register.Access

def address : Access → UInt32
  | load x _ => x
  | store x _ => x

/-- The word that a read of the register at `x` found. -/
def loaded? (x : UInt32) : Access → Option UInt32
  | load y w => if y = x then some w else none
  | store .. => none

end Register.Access

namespace Aperture

variable (a : Aperture) (d : DeviceHandle)

def events : Register.Access → List Event
  | .load x w => a.loaded d x w
  | .store x v => a.stored d x v

/-- The accesses to registers that went through the window; `index` is what its index register
    holds, if that is known. -/
def seen (index : Option UInt32) : List Event → List Register.Access
  | [] => []
  | ⟨.write d' o v, x⟩ :: es =>
    if d' = d ∧ o = a.index then seen (some v) es
    else match index, x with
      | some i, .ok () => if d' = d ∧ o = a.data then .store i v :: seen index es else seen index es
      | _, _ => seen index es
  | ⟨.read d' o, x⟩ :: es =>
    match index, x with
    | some i, .ok w => if d' = d ∧ o = a.data then .load i w :: seen index es else seen index es
    | _, _ => seen index es
  | _ :: es => seen index es

/-- The words that the register at `x` answered. -/
def loads (x : UInt32) (es : List Event) : List UInt32 :=
  (a.seen d none es).filterMap (·.loaded? x)

variable {a d} {es : List Event}

/-- The accesses of a window work. -/
theorem of_mem_events {as : List Register.Access} {x : Event} (h : x ∈ as.flatMap (a.events d)) :
    x.isAccess = true ∧ x.error? = none := by
  obtain ⟨s, -, hx⟩ := List.mem_flatMap.mp h
  cases s <;> simp only [events, loaded, stored, List.mem_cons, List.not_mem_nil, or_false] at hx <;>
    rcases hx with rfl | rfl <;> exact ⟨rfl, rfl⟩

theorem filter_isAccess_events (as : List Register.Access) :
    (as.flatMap (a.events d)).filter Event.isAccess = as.flatMap (a.events d) :=
  List.filter_eq_self.mpr fun _ h => (of_mem_events h).1

theorem seen_filter_isAccess (index : Option UInt32) :
    a.seen d index (es.filter Event.isAccess) = a.seen d index es := by
  induction es generalizing index with
  | nil => rfl
  | cons x es ih =>
    rcases x with ⟨r, y⟩
    cases r
    case read => simp only [List.filter, Event.isAccess, seen, ih]
    case write => simp only [List.filter, Event.isAccess, seen, ih]
    all_goals exact ih index

/-- Following the index finds the registers that were accessed. -/
theorem seen_events (hw : a.data ≠ a.index) (as : List Register.Access) (index : Option UInt32) :
    a.seen d index (as.flatMap (a.events d)) = as := by
  induction as generalizing index with
  | nil => rfl
  | cons x as ih =>
    cases x <;> simp [events, loaded, stored, seen, hw, ih]

end Aperture

end FirmwareMailbox
