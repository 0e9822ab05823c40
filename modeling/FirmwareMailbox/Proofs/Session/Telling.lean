/-
  FirmwareMailbox.Proofs.Session.Telling — an error with a code of the hardware tells what the hardware
  said.

  A job fails with the code of a status word if and only if the last thing it did to a device was to
  find that word in the status of a mailbox, and the word was one to fail for (`Fault`). That holds of an
  exchange, of a value or an error of anything but the firmware, and of what follows one such job after
  the other (`Job.Tells.closed`), so it holds of the probe and of every errand (`Operation.tells_errand`).

  An access begins with the write of an index. So the word that a job ended with is not taken for the
  end of one that goes on from there (`EndsAt.of_append`).
-/

import FirmwareMailbox.Proofs.Session.Confinement
import FirmwareMailbox.Proofs.Session.GivingUp

namespace FirmwareMailbox

/-! ## Codes -/

theorem Error.code_eq_hardware {e : Error} {st : UInt32} : e.code = .hardware st ↔ e = .hardware st := by
  cases e <;> simp [code]

theorem Error.kind_eq_hardware {e : Error} : e.kind = .hardware ↔ ∃ st, e = .hardware st := by
  cases e with
  | io i => cases hi : i.isPermissionDenied <;> simp [kind, hi]
  | system n => by_cases hn : n = .notPermitted ∨ n = .accessDenied <;> simp [kind, hn]
  | _ => simp [kind]

/-- No number of the system is described as a success. -/
theorem Errno.description_ne_success (n : Errno) : n.description ≠ "Success" := by
  have htable : ∀ x ∈ errnoTable, x.description ≠ "Success" := by decide +kernel
  unfold description
  cases hf : find? n.number with
  | none => decide
  | some x => exact htable x (List.mem_of_find?_eq_some hf)

/-- Only a status of 0 would be. -/
theorem ErrorCode.describe_ne_success {c : ErrorCode} (h : c ≠ .hardware 0) : c.describe ≠ "Success" := by
  cases c with
  | system n => exact n.description_ne_success
  | hardware s =>
    have hs : s ≠ 0 := fun he => h (he ▸ rfl)
    simp only [describe, if_neg hs]
    split
    · decide
    · split <;> decide

/-! ## The last word of a status -/

/-- The last access finds this word in the status of a mailbox. -/
def EndsAt (st : UInt32) (as : List Event) : Prop :=
  ∃ d, Aperture.hsmp.loaded d Register.status st <:+ as

/-- The first access, if there is one, writes an index. -/
def Opens (as : List Event) : Prop := ∀ x, as.head? = some x → ∃ d o v, x.request = .write d o v

theorem EndsAt.ne_nil {st : UInt32} {as : List Event} (h : EndsAt st as) : as ≠ [] := by
  rintro rfl
  obtain ⟨d, hd⟩ := h
  cases List.suffix_nil.mp hd

theorem Opens.append {as bs : List Event} (ha : Opens as) (hb : Opens bs) : Opens (as ++ bs) := by
  intro x hx
  cases as with
  | nil => exact hb x hx
  | cons y as => exact ha x hx

/-- The requests decide. -/
theorem Opens.of_requests {as bs : List Event} (hb : Opens bs)
    (h : as.map (·.request) <+: bs.map (·.request)) : Opens as := by
  intro x hx
  obtain ⟨rest, rfl⟩ := List.head?_eq_some_iff.mp hx
  obtain ⟨tail, ht⟩ := h
  obtain ⟨y, ys, rfl, hy, -⟩ := List.map_eq_cons_iff.mp ht.symm
  obtain ⟨d, o, v, hreq⟩ := hb y rfl
  exact ⟨d, o, v, hy.symm.trans hreq⟩

/-- Two stretches end where the second one ends, if there is one. -/
theorem EndsAt.of_append {st : UInt32} {as bs : List Event} (hb : Opens bs) (h : EndsAt st (as ++ bs)) :
    (bs = [] ∧ EndsAt st as) ∨ EndsAt st bs := by
  obtain ⟨d, hd⟩ := h
  match bs, hb with
  | [], _ =>
    rw [List.append_nil] at hd
    exact Or.inl ⟨rfl, d, hd⟩
  | [x], hb =>
    -- the word would be read after an index that the first stretch wrote
    obtain ⟨d', o, v, hx⟩ := hb x rfl
    obtain ⟨pre, hpre⟩ := hd
    have hlast := congrArg List.getLast? hpre
    simp only [Aperture.loaded, List.getLast?_append, List.getLast?_cons_cons, List.getLast?_singleton,
      Option.some_or] at hlast
    rw [← Option.some.inj hlast] at hx
    cases hx
  | x :: y :: rest, _ =>
    refine Or.inr ⟨d, List.suffix_of_suffix_length_le hd (List.suffix_append as _) ?_⟩
    simp [Aperture.loaded]

theorem EndsAt.append {st : UInt32} {bs : List Event} (h : EndsAt st bs) (as : List Event) :
    EndsAt st (as ++ bs) := by
  obtain ⟨d, hd⟩ := h
  exact ⟨d, hd.trans (List.suffix_append as bs)⟩

/-- Accesses to registers end at a status if the last one is a look at it. -/
theorem endsAt_events {st : UInt32} {d : DeviceHandle} {as : List Register.Access} :
    EndsAt st (as.flatMap (Aperture.hsmp.events d)) ↔ as.getLast? = some (.load Register.status st) := by
  rcases List.eq_nil_or_concat as with rfl | ⟨init, x, rfl⟩
  · simp [EndsAt, Aperture.loaded]
  rw [List.concat_eq_append, List.flatMap_append, List.getLast?_append]
  simp only [List.flatMap_cons, List.flatMap_nil, List.append_nil, List.getLast?_singleton, Option.some_or,
    Option.some.injEq]
  constructor
  · rintro ⟨d', hd⟩
    have hlen : (Aperture.hsmp.events d x).length = 2 := by cases x <;> rfl
    have heq := List.IsSuffix.eq_of_length (List.suffix_of_suffix_length_le hd (List.suffix_append _ _)
      (by rw [hlen]; exact Nat.le_refl 2)) hlen.symm
    cases x with
    | load y w =>
      cases heq
      rfl
    | store y v => cases heq
  · rintro rfl
    exact ⟨d, List.suffix_append _ _⟩

/-- An access that failed finds no word. -/
theorem Cut.not_endsAt {st : UInt32} {es full : List Event} {e : Error} (h : Cut es full e) :
    ¬ EndsAt st es := by
  rintro ⟨d, pre, hpre⟩
  obtain ⟨pre', x, y, rest, -, rfl, -, hy⟩ := h
  have hlast := congrArg List.getLast? hpre
  simp only [Aperture.loaded, List.getLast?_append, List.getLast?_cons_cons, List.getLast?_singleton,
    Option.some_or] at hlast
  rw [← Option.some.inj hlast] at hy
  cases hy

/-! ## Telling results -/

/-- A word to fail for: the firmware answered, and not with an OK. If it promised the message, that it
    does not know it is a failure of another kind. -/
def Fault (promised : Option MessageId) (st : UInt32) : Prop :=
  st ≠ Status.notReady ∧ st ≠ Status.ok ∧ (promised ≠ none → st ≠ Status.invalidMessage)

/-- No status word caused this. -/
def Unstated {α : Type} (x : Except Error α) : Prop := ∀ st, x ≠ .error (.hardware st)

/-- The accesses of something with this result, after which the firmware sent no word to fail for, or one
    that the result tells. -/
structure Telling {α : Type} (promised : Option MessageId) (as : List Event) (r : Except Error α) : Prop where
  opens : Opens as
  fault : ∀ st, r = .error (.hardware st) ↔ Fault promised st ∧ EndsAt st as
  refused : ∀ id, promised = some id → EndsAt Status.invalidMessage as → r = .error (.firmwareRejected id)

section

variable {α β : Type}

theorem Unstated.ok (a : α) : Unstated (.ok a : Except Error α) := fun st h => by cases h

namespace Telling

variable {p q : Option MessageId} {as bs : List Event}

/-- Where nothing is accessed there is nothing to tell. -/
theorem nil {r : Except Error α} (hr : Unstated r) : Telling p [] r where
  opens x hx := by cases hx
  fault st := iff_of_false (hr st) fun h => h.2.ne_nil rfl
  refused id _ h := absurd rfl h.ne_nil

/-- A result that is no failure leaves no word to fail for. -/
theorem quiet {a : α} (h : Telling p as (.ok a)) {st : UInt32} (hst : EndsAt st as) :
    st = Status.notReady ∨ st = Status.ok := by
  by_contra hne
  obtain ⟨h0, h1⟩ := not_or.mp hne
  by_cases hm : p ≠ none ∧ st = Status.invalidMessage
  · obtain ⟨id, hid⟩ := Option.ne_none_iff_exists'.mp hm.1
    cases h.refused id hid (hm.2 ▸ hst)
  · cases (h.fault st).mpr ⟨⟨h0, h1, fun hp he => hm ⟨hp, he⟩⟩, hst⟩

theorem append {a : α} {r : Except Error β} (h : Telling p as (.ok a)) (h' : Telling q bs r) :
    Telling q (as ++ bs) r where
  opens := h.opens.append h'.opens
  fault st := by
    refine (h'.fault st).trans (and_congr_right fun hst => ⟨fun he => he.append as, fun he => ?_⟩)
    rcases he.of_append h'.opens with ⟨-, he⟩ | he
    · rcases h.quiet he with h0 | h1
      · exact absurd h0 hst.1
      · exact absurd h1 hst.2.1
    · exact he
  refused id hid he := by
    rcases he.of_append h'.opens with ⟨-, he⟩ | he
    · rcases h.quiet he with h0 | h1
      · exact absurd h0 (by decide)
      · exact absurd h1 (by decide)
    · exact h'.refused id hid he

/-- A failure is handed on as it is. -/
theorem error {e : Error} (h : Telling p as (.error e : Except Error α)) :
    Telling p as (.error e : Except Error β) where
  opens := h.opens
  fault st := by
    rw [← h.fault st, Except.error.injEq, Except.error.injEq]
  refused id hid he := congrArg Except.error (Except.error.inj (h.refused id hid he))

theorem map {x : Except Error α} (h : Telling p as x) (f : α → β) : Telling p as (x.map f) := by
  cases x with
  | error e => exact h.error
  | ok a =>
    have hok : Telling p (as ++ []) (.ok (f a)) := h.append (nil (.ok (f a)))
    rwa [List.append_nil] at hok

end Telling

end

/-- Every result of the job is telling, on plain machines. -/
def Job.Tells {α : Type} (promised : Option MessageId) (j : Job α) : Prop :=
  ∀ es r, (∀ x ∈ es, x.Plain) → Job.Yields j es r → Telling promised (es.filter Event.isAccess) r

/-- It is told from the last part that made an access. -/
theorem Job.Tells.closed {p : Option MessageId} :
    Closed (fun e => ∀ st, e ≠ .hardware st) fun j => Tells p j := by
  refine .of_bind_ok (fun {α x} hx => ?_) fun {α β j f} hj hf => ?_
  · intro es r _ h
    obtain ⟨rfl, rfl⟩ := Job.yields_lift.mp h
    exact .nil fun st hst => hx _ hst st rfl
  · intro es r hes h
    rcases Job.yields_bind.mp h with ⟨e, rfl, hfail⟩ | ⟨fs, gs, a, rfl, hok, hrest⟩
    · exact (hj es _ hes hfail).error
    · obtain ⟨hfs, hgs⟩ := List.forall_mem_append.mp hes
      rw [List.filter_append]
      exact (hj fs _ hfs hok).append (hf fs a hok gs r hgs hrest)

/-! ## Exchanges -/

namespace Message

variable {m : Message} {c : Config} {d : DeviceHandle} {ss ws : List UInt32} {polls : Nat}

/-- A transaction ends at the status it waited for, unless it went on to read a response. -/
theorem endsAt_accesses {st : UInt32} (hA : m.Answered polls ss ws) (hr : m.responseLength ≤ Register.slotCount) :
    EndsAt st ((m.accesses ss ws).flatMap (Aperture.hsmp.events d)) ↔ ws = [] ∧ ss.getLast? = some st := by
  rw [endsAt_events, accesses, List.getLast?_append, List.getLast?_append]
  by_cases hws : ws = []
  · subst hws
    rw [show loadedSlots 0 [] = [] from rfl, List.getLast?_nil, Option.none_or, List.getLast?_map]
    cases ss.getLast? with
    | none =>
      refine iff_of_false (fun h => ?_) fun h => by cases h.2
      rw [Option.map_none, Option.none_or, request, ← List.cons_append, List.getLast?_append] at h
      cases h
    | some s => simp
  · have hne : loadedSlots 0 ws ≠ [] := fun h => hws (by simpa [loadedSlots] using h)
    obtain ⟨x, hx⟩ := Option.ne_none_iff_exists'.mp (mt List.getLast?_eq_none_iff.mp hne)
    rw [hx, Option.some_or, Option.some_or]
    refine iff_of_false (fun h => ?_) fun h => hws h.1
    have haddress := (address_ne (Nat.le_trans hA.length_le hr) (Or.inr (List.mem_of_getLast? hx))).2
    cases h
    exact haddress rfl

theorem opens_accesses (m : Message) (d : DeviceHandle) (ss ws : List UInt32) :
    Opens ((m.accesses ss ws).flatMap (Aperture.hsmp.events d)) := by
  intro x hx
  cases hx
  exact ⟨_, _, _, rfl⟩

/-- A whole transaction fails with the word that it ends at, or for it. -/
theorem telling_outcome {highest p : Option MessageId} {budget : UInt32} (hA : m.Answered polls ss ws)
    (hr : m.responseLength ≤ Register.slotCount)
    (hp : p = none ∧ highest = none ∨ p = some m.id ∧ m.id.within highest = true) :
    Telling p ((m.accesses ss ws).flatMap (Aperture.hsmp.events d)) (m.outcome highest budget ss ws) := by
  have hlast : ∀ {st}, ss.getLast? = some st → lastStatus ss = st := by
    intro st h
    rw [lastStatus, h, Option.getD_some]
  have hpromised : p ≠ none ↔ ∃ h, highest = some h ∧ m.id ≤ h := by
    rw [← within_iff]
    rcases hp with ⟨rfl, rfl⟩ | ⟨rfl, hw⟩
    · exact iff_of_false (not_not_intro rfl) Bool.false_ne_true
    · exact iff_of_true (Option.some_ne_none _) hw
  refine ⟨opens_accesses m d ss ws, fun st => ?_, fun id hid he => ?_⟩
  · rw [endsAt_accesses hA hr]
    constructor
    · intro ho
      rcases outcome_error ho with ⟨-, he⟩ | ⟨h0, ⟨-, he⟩ | he⟩
      · cases he
      · cases he
      obtain rfl : st = lastStatus ss := (Error.hardware.injEq ..).mp he
      obtain ⟨hok, hrefused, -⟩ := @outcome_set ss m highest budget ws h0
      have h1 : lastStatus ss ≠ Status.ok := fun h => by
        obtain ⟨words, hw⟩ := hok.mpr h
        rw [ho] at hw
        cases hw
      refine ⟨⟨h0, h1, fun hne h => ?_⟩, ?_, ?_⟩
      · rw [hrefused.mpr ⟨h, hpromised.mp hne⟩] at ho
        cases ho
      · exact List.eq_nil_of_length_eq_zero (by rw [hA.length, if_neg h1])
      · cases hss : ss.getLast? with
        | none => exact absurd (by rw [lastStatus, hss]; rfl) h0
        | some s => rw [hlast hss]
    · rintro ⟨⟨h0, h1, hne⟩, -, hss⟩
      rw [← hlast hss] at h0 h1 hne ⊢
      exact (outcome_set h0).2.2 h1 fun h => hne (hpromised.mpr h.2) h.1
  · obtain ⟨-, hss⟩ := (endsAt_accesses hA hr).mp he
    obtain rfl : m.id = id := by
      rcases hp with ⟨rfl, -⟩ | ⟨rfl, -⟩
      · cases hid
      · exact Option.some.inj hid
    have hne : lastStatus ss ≠ Status.notReady := by
      rw [hlast hss]
      decide
    exact (outcome_set hne).2.1.mpr ⟨hlast hss, hpromised.mp (hid ▸ Option.some_ne_none _)⟩

/-- An exchange before any version is known, or of a message that the firmware promised. -/
theorem tells_exchange (c : Config) (d : DeviceHandle) {m : Message} (hr : m.responseLength ≤ Register.slotCount)
    {highest p : Option MessageId}
    (hp : p = none ∧ highest = none ∨ p = some m.id ∧ m.id.within highest = true) :
    Job.Tells p (m.exchange c d highest) := by
  intro es r hes h
  rcases yields_exchange h with ⟨e, he, rfl, rfl⟩ | ⟨rfl, rfl⟩ | ⟨e, rfl, rfl⟩ | ⟨fs, rfl, hf⟩
  · refine .nil fun st hst => ?_
    cases hst
    cases checkSize_eq_error he
  · exact .nil fun st hst => by cases hst
  · refine .nil fun st hst => ?_
    cases hst
    have hl : (Event.mk (.lock c.lockPath) (.error (.hardware st))).Plain := hes _ (by simp)
    cases hl
  have hacc : (⟨.isDisabled, false⟩ :: ⟨.lock c.lockPath, .ok ()⟩ :: (fs ++ [⟨.unlock c.lockPath, ()⟩])).filter
      Event.isAccess = fs.filter Event.isAccess := by
    simp [Event.isAccess]
  rw [hacc]
  obtain ⟨ss, ws, hA, ⟨rfl, rfl⟩ | ⟨e, rfl, hc⟩⟩ := yields_converse hf
  · have hdisable : (if lastStatus ss = Status.notReady then [⟨.disable, ()⟩] else [] : List Event).filter
        Event.isAccess = [] := by
      split <;> rfl
    rw [List.filter_append, hdisable, List.append_nil, filter_isAccess_transaction]
    exact telling_outcome hA hr hp
  · have hcut := hc.filter_isAccess
    rw [filter_isAccess_transaction] at hcut
    refine ⟨fun x hx => ?_, fun st => iff_of_false (fun hst => ?_) fun h => hcut.not_endsAt h.2,
      fun id _ he => absurd he hcut.not_endsAt⟩
    · exact (opens_accesses m d ss ws).of_requests hcut.requests x hx
    · cases hst
      obtain ⟨y, hy, hye⟩ := hc.exists_error
      have hd := (hes y (by simp [hy])).ofDevice hye
      cases hd

end Message

/-! ## Discovery and negotiation -/

section

variable {p : Option MessageId}

/-- A look at a bus number is no look at a status. -/
theorem Aperture.tells_smn_read (d : DeviceHandle) (a : UInt32) : Job.Tells p (Aperture.smn.read d a) := by
  intro es r hes h
  have hfull : ∀ w, (Aperture.smn.loaded d a w).filter Event.isAccess = Aperture.smn.loaded d a w := fun _ => rfl
  have hopens : Opens (Aperture.smn.loaded d a 0) := by
    intro x hx
    cases hx
    exact ⟨_, _, _, rfl⟩
  rcases Aperture.yields_read h with ⟨w, rfl, rfl⟩ | ⟨e, rfl, hc⟩
  · have hnot : ∀ st, ¬ EndsAt st (Aperture.smn.loaded d a w) := by
      rintro st ⟨d', hd⟩
      cases List.IsSuffix.eq_of_length hd rfl
    exact ⟨fun x hx => by cases hx; exact ⟨_, _, _, rfl⟩,
      fun st => iff_of_false (fun hst => by cases hst) fun h => hnot st h.2, fun _ _ h => absurd h (hnot _)⟩
  · have hcut := (hc 0).filter_isAccess
    rw [hfull] at hcut
    refine ⟨hopens.of_requests hcut.requests, fun st => iff_of_false (fun hst => ?_) fun h =>
      hcut.not_endsAt h.2, fun _ _ h => absurd h hcut.not_endsAt⟩
    cases hst
    obtain ⟨y, hy, hye⟩ := (hc 0).exists_error
    have hd := (hes y hy).ofDevice hye
    cases hd

theorem Topology.tells_ofDevices (devices : List PciDevice) : Job.Tells p (ofDevices devices) :=
  Job.Tells.closed.ofDevices (fun _ st h => by cases h) devices fun _ _ _ _ => Aperture.tells_smn_read _ _

end

theorem Capabilities.tells_negotiate (c : Config) (t : Topology) : Job.Tells none (negotiate c t) := by
  refine Job.Tells.closed.negotiation (fun e he st h => ?_) c t fun _ _ _ m hm _ =>
    Message.tells_exchange c _ hm.sizes.2 (Or.inl ⟨rfl, rfl⟩)
  subst h
  cases he

/-! ## Errands -/

/-- An errand whose message the firmware promised tells why it failed. -/
theorem Operation.tells_errand {op : Operation} {inv : Inventory} (s : Session) {p : Option MessageId}
    (h : ∀ id, op.message? = some id → p = some id ∧ id.within inv.capabilities.highestMessage = true) :
    Job.Tells p (liftM (op.errand inv) >>= fun e => e.perform s inv) :=
  Job.Tells.closed.errand (fun _ st h => by cases h) s inv op fun _ _ _ _ m hm hid =>
    Message.tells_exchange s.config _ hm.sizes.2 (Or.inr (h m.id hid))

/-! ## Runs -/

/-- A machine of which only the firmware fails with status words: its scan and its list of processors do
    not, nor do its devices and its lock. -/
structure Machine.Honest {μ : Type} (M : Machine μ) : Prop extends M.Plain where
  devices : ∀ {m e}, (M.devices m).1 = .error e → e.kind ≠ .hardware
  cpus : ∀ {m e}, M.cpus m = .error e → e.kind ≠ .hardware

namespace World

variable {μ : Type} {M : Machine μ} {s : Session} {w w' : World μ} {es : List Event}

theorem unstated_of_kind {α : Type} {e : Error} (h : e.kind ≠ .hardware) :
    Unstated (.error e : Except Error α) := by
  intro st he
  cases he
  exact h rfl

theorem telling_learn (hM : M.Honest) {r : Except Error Inventory} (h : Runs M s.learn w es r w') :
    Telling none (es.filter Event.isAccess) r := by
  have hds : ∀ {devices ds y} {u v : World μ}, Runs M (Topology.ofDevices devices) u ds y v →
      Telling none (ds.filter Event.isAccess) y := fun h =>
    Topology.tells_ofDevices _ _ _ (h.plain hM.toPlain) h.yields
  rcases Session.runs_learn.mp h with ⟨e, rfl, hs⟩ | ⟨p, t, cpus, ks, u, ns, x, hs, hn, rfl, rfl⟩
  · generalize hr : (Except.error e : Except Error (Processor × Topology × CpuTable)) = r at hs
    cases Session.runs_survey hs with
    | unsupported hp =>
      cases hr
      refine .nil fun st he => ?_
      cases he
      obtain ⟨cause, hc⟩ := Processor.requireMailbox_eq_error hp
      cases hc
    | unlisted hd =>
      cases hr
      exact .nil (unstated_of_kind (hM.devices (congrArg Prod.fst hd)))
    | undiscovered hd ht =>
      cases hr
      exact (hds ht).error
    | cpuless hd ht hc =>
      cases hr
      rw [List.filter_append, List.filter_append]
      exact (hds ht).append (.nil (unstated_of_kind (hM.cpus hc)))
    | whole => cases hr
  · obtain ⟨devices, _, ds, _, -, ht, hks⟩ := accesses_survey hs
    obtain ⟨fs, _, hneg, hns⟩ := accesses_negotiate hn
    have htold := Capabilities.tells_negotiate s.config t _ _ (hneg.plain hM.toPlain) hneg.yields
    rw [List.filter_append, hks, hns]
    exact (hds ht).append (htold.map _)

/-- What a process tells of a step: before it knows its machine nothing was promised to it. -/
def Tells (p? : Option MessageId → Prop) {α : Type} (es : List Event) (r : Except Error α) (w' : World μ) : Prop :=
  (w'.memory.inventory = none ∧ Telling none (es.filter Event.isAccess) r) ∨
    (w'.memory.inventory ≠ none ∧ ∀ p, p? p → Telling p (es.filter Event.isAccess) r)

theorem Tells.nil {p? : Option MessageId → Prop} {α : Type} {r : Except Error α} (hr : Unstated r)
    (hes : es.filter Event.isAccess = []) (w' : World μ) : Tells p? es r w' := by
  rw [Tells, hes]
  by_cases hi : w'.memory.inventory = none
  · exact Or.inl ⟨hi, .nil hr⟩
  · exact Or.inr ⟨hi, fun _ _ => .nil hr⟩

theorem unstated_letPass (m? : Option MessageId) (inv : Inventory) : Unstated (Session.letPass m? inv) := by
  intro st h
  obtain ⟨id, -, he⟩ := Session.letPass_eq_error h
  cases he

theorem tells_gate (hM : M.Honest) {m? : Option MessageId} {r : Except Error Inventory}
    (h : Runs M (s.gate m?) w es r w') : Tells (fun _ => True) es r w' := by
  cases Session.runs_gate h with
  | denied | disabled => exact .nil (fun st he => by cases he) rfl _
  | @known inv => exact .nil (unstated_letPass m? inv) rfl _
  | @learned fs inv u _ _ _ hl =>
    refine Or.inr ⟨Option.some_ne_none _, fun p _ => ?_⟩
    have hacc : ([⟨.isPrivileged, true⟩, ⟨.isDisabled, false⟩, ⟨.recall, none⟩] ++
        (fs ++ [⟨.publish inv, ()⟩]) : List Event).filter Event.isAccess = fs.filter Event.isAccess ++ [] := by
      simp [Event.isAccess]
    rw [hacc]
    exact (telling_learn hM hl).append (.nil (unstated_letPass m? inv))
  | @failed fs e _ _ _ hn hl =>
    have htold := telling_learn hM hl
    exact Or.inl ⟨(inventory_learn hl).trans hn, htold⟩

/-- Behind the gate the firmware promised what is sent. -/
theorem promised_of_gate {op : Operation} {gs : List Event} {inv : Inventory} {u : World μ}
    (hg : Runs M (s.gate op.asks) w gs (.ok inv) u) {id : MessageId} (hid : op.message? = some id) :
    id.within inv.capabilities.highestMessage = true := by
  obtain ⟨asked, hasked, hle⟩ := op.asks_covers hid
  have hv := (Session.gate_ok hg).2 asked hasked
  exact (Capabilities.permits_iff _ id).trans (decide_eq_true (UInt32.le_trans hle hv))

theorem tells_perform (hM : M.Honest) {op : Operation} {r : Except Error Answer}
    (h : Runs M (op.perform s) w es r w') :
    Tells (fun p => ∀ id, op.message? = some id → p = some id) es r w' := by
  rcases runs_perform h with ⟨cause, -, rfl, rfl, rfl⟩ | ⟨e, rfl, hg⟩ | ⟨gs, fs, inv, u, rfl, hg, hi, hrest⟩
  · exact .nil (fun st he => by cases he) rfl _
  · rcases tells_gate hM hg with ⟨hn, ht⟩ | ⟨hk, ht⟩
    · exact Or.inl ⟨hn, ht.error⟩
    · exact Or.inr ⟨hk, fun p _ => (ht p trivial).error⟩
  · have hi' := (inTurn_rest hi hrest).2
    have hbefore : ∀ p, Telling p (gs.filter Event.isAccess) (.ok inv) := by
      intro p
      rcases tells_gate hM hg with ⟨hn, -⟩ | ⟨-, ht⟩
      · rw [hi] at hn
        cases hn
      · exact ht p trivial
    refine Or.inr ⟨by rw [hi']; exact Option.some_ne_none _, fun p hp => ?_⟩
    rw [List.filter_append]
    refine (hbefore p).append ?_
    obtain ⟨qs, ks, rfl, hq, ⟨rfl, -, m?, e, rfl, hg'⟩ | herrand⟩ := runs_rest hi hrest
    · rw [List.append_nil]
      rcases tells_gate hM hg' with ⟨hn, -⟩ | ⟨-, ht⟩
      · rw [hi] at hn
        cases hn
      · exact (ht p trivial).error
    · rw [List.filter_append, filter_isAccess_questions hq, List.nil_append]
      exact Operation.tells_errand s (fun id hid => ⟨hp id hid, promised_of_gate hg hid⟩) _ _
        (herrand.plain hM.toPlain) herrand.yields

/-- An operation that fails has the code of a status word if and only if it has the kind, and if and only
    if the last access it made, or that the probe made for it, found that word in the status of a
    mailbox and the word was one to fail for. That is never 0 and never an OK, and in a process that
    knew its machine it is not the refusal of a message either: that one ends in an error of its own, with
    a code of the system. So no failure is described as a success. -/
theorem error_tells_status (hM : M.Honest) (s : Session) (op : Operation) (w : World μ) (e : Error)
    (h : (World.run M (op.perform s) w).1 = .error e) :
    let as := (World.transcript M (op.perform s) w).filter Event.isAccess
    let w' := (World.run M (op.perform s) w).2
    (e.kind = .hardware ↔ ∃ st, e.code = .hardware st) ∧
    (∀ st, e.code = .hardware st ↔ EndsAt st as ∧ st ≠ Status.notReady ∧ st ≠ Status.ok ∧
      (st = Status.invalidMessage → w'.memory.inventory = none)) ∧
    (w.memory.inventory ≠ none → e.code ≠ .hardware Status.invalidMessage ∧
      (EndsAt Status.invalidMessage as → ∃ id, op.message? = some id ∧ e = .firmwareRejected id ∧
        e.kind = .unsupported ∧ e.code = .system .notSupported)) ∧
    e.code.describe ≠ "Success" := by
  intro as w'
  have htold := tells_perform hM (runs M (op.perform s) w)
  rw [h] at htold
  have hcode : ∀ st, e.code = .hardware st ↔ EndsAt st as ∧ st ≠ Status.notReady ∧ st ≠ Status.ok ∧
      (st = Status.invalidMessage → w'.memory.inventory = none) := by
    intro st
    have he : e.code = .hardware st ↔ (Except.error e : Except Error Answer) = .error (.hardware st) := by
      rw [Error.code_eq_hardware, Except.error.injEq]
    rw [he]
    rcases htold with ⟨hn, ht⟩ | ⟨hk, ht⟩
    · rw [ht.fault st]
      exact ⟨fun ⟨hf, hend⟩ => ⟨hend, hf.1, hf.2.1, fun _ => hn⟩,
        fun ⟨hend, h0, h1, _⟩ => ⟨⟨h0, h1, fun hne => absurd rfl hne⟩, hend⟩⟩
    · rw [(ht (some (op.message?.getD .test)) fun id hid => by rw [hid, Option.getD_some]).fault st]
      exact ⟨fun ⟨hf, hend⟩ => ⟨hend, hf.1, hf.2.1, fun hm => absurd hm (hf.2.2 (Option.some_ne_none _))⟩,
        fun ⟨hend, h0, h1, hm⟩ => ⟨⟨h0, h1, fun _ hst => hk (hm hst)⟩, hend⟩⟩
  refine ⟨?_, hcode, fun hi => ?_, ErrorCode.describe_ne_success fun hc => ((hcode 0).mp hc).2.1 rfl⟩
  · rw [Error.kind_eq_hardware]
    exact exists_congr fun st => Error.code_eq_hardware.symm
  · obtain ⟨inv, hinv⟩ := Option.ne_none_iff_exists'.mp hi
    have hstep : Step.operation op ≠ .forget := fun he => by cases he
    have hkept : w'.memory.inventory = some inv :=
      (inTurn_steps M s (List.forall_mem_singleton.mpr hstep) hinv).2
    have hknown : w'.memory.inventory ≠ none := by
      rw [hkept]
      exact Option.some_ne_none inv
    refine ⟨fun hc => hknown (((hcode _).mp hc).2.2.2 rfl), fun hend => ?_⟩
    rcases htold with ⟨hn, -⟩ | ⟨-, ht⟩
    · exact absurd hn hknown
    cases hid : op.message? with
    | some id =>
      have hr := (ht (some id) fun id' hid' => hid.symm.trans hid').refused id rfl hend
      cases hr
      exact ⟨id, rfl, rfl, rfl, rfl⟩
    | none =>
      -- then nothing was promised, so the refusal would be told; but nothing is sent
      have hnone := fun p => ht p fun id hid' => by rw [hid] at hid'; cases hid'
      have hr := ((hnone none).fault _).mpr ⟨⟨by decide, by decide, fun hne => absurd rfl hne⟩, hend⟩
      have hr' := (hnone (some .test)).refused .test rfl hend
      rw [hr] at hr'
      cases hr'

end World

theorem Simulation.machine_honest : Simulation.machine.Honest where
  toPlain := machine_plain
  devices h := by cases h
  cpus h := by cases h

namespace World

/-- A process that knows its machine, whose firmware takes no argument. -/
def refused : World Simulation.State :=
  { dated with machine := dated.machine.updateSocket 0 fun x =>
      { x with firmware := { x.firmware with forcedStatus := some Status.invalidArgument } } }

theorem refused_error_told :
    let s : Session := ⟨Simulation.config⟩
    (World.run Simulation.machine (Operation.perform s (.socketPower 0)) refused).1 =
        .error (.hardware Status.invalidArgument) ∧
      EndsAt Status.invalidArgument
        ((World.transcript Simulation.machine (Operation.perform s (.socketPower 0)) refused).filter
          Event.isAccess) ∧
      Error.code (.hardware Status.invalidArgument) ≠ .hardware Status.invalidMessage := by
  intro s
  have hr : (World.run Simulation.machine (Operation.perform s (.socketPower 0)) refused).1 =
      .error (.hardware Status.invalidArgument) := by
    decide +kernel
  obtain ⟨-, hcode, hknown, -⟩ :=
    error_tells_status Simulation.machine_honest s (.socketPower 0) refused _ hr
  exact ⟨hr, ((hcode _).mp rfl).1, (hknown (by decide)).1⟩

end World

end FirmwareMailbox
