/-
  FirmwareMailbox.Proofs.Message.Transaction — the runs of one exchange.

  A transaction that no access breaks off is fixed by the words it reads: the status words, which
  stop at the first that is set or when the budget is spent (`Polled`), and the response, which is
  read only after an OK (`Answered`). The registers it accesses are `accesses`, its events
  `transaction`. Every run of an exchange that got the lock is such a transaction, or one cut at the
  access that failed (`yields_converse`). The proof goes along the exchange, one lemma for each of
  its loops.
-/

import FirmwareMailbox.Message.Exchange
import FirmwareMailbox.Proofs.Register.Access

namespace FirmwareMailbox.Message

/-! ## The events of a transaction -/

/-- The status words that a wait may find that reads at most so many: none follows one that is
    set. -/
inductive Polled : Nat → List UInt32 → Prop
  | out : Polled 0 []
  | set {n : Nat} {s : UInt32} : s ≠ Status.notReady → Polled (n + 1) [s]
  | clear {n : Nat} {ss : List UInt32} : Polled n ss → Polled (n + 1) (Status.notReady :: ss)

/-- The status that a wait ends with: the last one read, and clear if none was. -/
def lastStatus (ss : List UInt32) : UInt32 := ss.getLast?.getD Status.notReady

/-- What a transaction may read: status words `ss`, and as a response to an OK the words `ws`. -/
structure Answered (m : Message) (polls : Nat) (ss ws : List UInt32) : Prop where
  polled : Polled polls ss
  length : ws.length = if lastStatus ss = Status.ok then m.responseLength else 0

def storedSlots (i : Nat) (ws : List UInt32) : List Register.Access :=
  (ws.zipIdx i).map fun (w, j) => .store (Register.slot j) w

def loadedSlots (i : Nat) (ws : List UInt32) : List Register.Access :=
  (ws.zipIdx i).map fun (w, j) => .load (Register.slot j) w

/-- The accesses that end in the start of the firmware. -/
def request (m : Message) : List Register.Access :=
  .store Register.status Status.notReady ::
    (storedSlots 0 m.args ++ [.store Register.messageId m.id.number])

/-- The registers that a transaction accesses. -/
def accesses (m : Message) (ss ws : List UInt32) : List Register.Access :=
  m.request ++ (ss.map (.load Register.status) ++ loadedSlots 0 ws)

/-- The events of a wait: a pause before each read of the status. -/
def waited (d : DeviceHandle) (interval : Nat) (ss : List UInt32) : List Event :=
  ss.flatMap fun s => ⟨.pause interval, ()⟩ :: Aperture.hsmp.loaded d Register.status s

/-- Everything that happens under the lock. -/
def transaction (m : Message) (c : Config) (d : DeviceHandle) (ss ws : List UInt32) : List Event :=
  m.request.flatMap (Aperture.hsmp.events d) ++
    (waited d c.interval ss ++ (loadedSlots 0 ws).flatMap (Aperture.hsmp.events d))

/-- What a transaction ends in. -/
def outcome (m : Message) (highest : Option MessageId) (polls : UInt32) (ss ws : List UInt32) :
    Except Error (List UInt32) :=
  match refusal? m.id highest polls (lastStatus ss) with
  | none => .ok ws
  | some e => .error e

theorem Answered.length_le {m : Message} {polls : Nat} {ss ws : List UInt32}
    (h : m.Answered polls ss ws) : ws.length ≤ m.responseLength := by
  rw [h.length]
  split <;> omega

theorem lastStatus_clear (ss : List UInt32) : lastStatus (Status.notReady :: ss) = lastStatus ss := by
  cases ss with
  | nil => rfl
  | cons s ss => rw [lastStatus, lastStatus, List.getLast?_cons_cons]

/-- The events in the order of the steps that make them. -/
theorem transaction_eq (m : Message) (c : Config) (d : DeviceHandle) (ss ws : List UInt32) :
    m.transaction c d ss ws = Aperture.hsmp.stored d Register.status Status.notReady ++
      ((storedSlots 0 m.args).flatMap (Aperture.hsmp.events d) ++
        (Aperture.hsmp.stored d Register.messageId m.id.number ++
          (waited d c.interval ss ++ (loadedSlots 0 ws).flatMap (Aperture.hsmp.events d)))) := by
  simp only [transaction, request, List.flatMap_cons, List.flatMap_append, List.flatMap_nil,
    List.append_nil, List.append_assoc]
  rfl

/-- Without its pauses, a transaction is its accesses. -/
theorem filter_isAccess_transaction (m : Message) (c : Config) (d : DeviceHandle)
    (ss ws : List UInt32) : (m.transaction c d ss ws).filter Event.isAccess =
      (m.accesses ss ws).flatMap (Aperture.hsmp.events d) := by
  have hw : ∀ ss, (waited d c.interval ss).filter Event.isAccess =
      (ss.map (Register.Access.load Register.status)).flatMap (Aperture.hsmp.events d) := by
    intro ss
    induction ss with
    | nil => rfl
    | cons s ss ih =>
      rw [List.map_cons, List.flatMap_cons, ← ih]
      rfl
  simp only [transaction, accesses, List.filter_append, List.flatMap_append, hw,
    Aperture.filter_isAccess_events]

/-- A transaction works at every access, and besides accesses it only pauses. -/
theorem of_mem_transaction {m : Message} {c : Config} {d : DeviceHandle} {ss ws : List UInt32}
    {x : Event} (h : x ∈ m.transaction c d ss ws) :
    x = ⟨.pause c.interval, ()⟩ ∨ x ∈ (m.accesses ss ws).flatMap (Aperture.hsmp.events d) := by
  rw [← filter_isAccess_transaction m c, List.mem_filter]
  by_cases ha : x.isAccess = true
  · exact Or.inr ⟨h, ha⟩
  · left
    rcases List.mem_append.mp h with h | h
    · exact absurd (Aperture.of_mem_events h).1 ha
    rcases List.mem_append.mp h with h | h
    · obtain ⟨s, -, hx⟩ := List.mem_flatMap.mp h
      rcases List.mem_cons.mp hx with rfl | hx
      · rfl
      · exact absurd (Aperture.of_mem_events
          (List.mem_flatMap.mpr ⟨.load _ s, List.mem_singleton.mpr rfl, hx⟩)).1 ha
    · exact absurd (Aperture.of_mem_events h).1 ha

theorem exists_polled (n : Nat) : ∃ ss, Polled n ss := by
  cases n with
  | zero => exact ⟨[], .out⟩
  | succ n => exact ⟨[Status.ok], .set (by decide)⟩

/-- Whatever the wait found, some words are a response to it. -/
theorem Polled.exists_answered {polls : Nat} {ss : List UInt32} (h : Polled polls ss) (m : Message) :
    ∃ ws, m.Answered polls ss ws :=
  ⟨List.replicate _ 0, h, List.length_replicate⟩

/-! ## The registers of a transaction -/

/-- A message of a size that is let through fits the slots. -/
theorem checkSize_eq_ok {m : Message} {u : Unit} (h : m.checkSize = .ok u) :
    m.args.length ≤ Register.slotCount ∧ m.responseLength ≤ Register.slotCount := by
  unfold checkSize at h
  split at h
  · cases h
  · omega

theorem checkSize_eq_error {m : Message} {e : Error} (h : m.checkSize = .error e) :
    e = .invalidArgument (.messageSize m.id m.args.length m.responseLength) := by
  unfold checkSize at h
  split at h <;> cases h
  rfl

/-- The slots are apart from the other registers of the mailbox. -/
theorem slot_ne : ∀ i < Register.slotCount,
    Register.slot i ≠ Register.messageId ∧ Register.slot i ≠ Register.status := by
  decide

theorem address_ne {ws : List UInt32} {x : Register.Access} (hl : ws.length ≤ Register.slotCount)
    (h : x ∈ storedSlots 0 ws ∨ x ∈ loadedSlots 0 ws) :
    x.address ≠ Register.messageId ∧ x.address ≠ Register.status := by
  rcases h with h | h
  all_goals
    obtain ⟨p, hp, rfl⟩ := List.mem_map.mp h
    have hi := List.snd_lt_of_mem_zipIdx hp
    exact slot_ne p.2 (by omega)

/-- The status words of a transaction are what its status register answered. -/
theorem loaded_status {m : Message} {polls : Nat} {ss ws : List UInt32} (hA : m.Answered polls ss ws)
    (hr : m.responseLength ≤ Register.slotCount) :
    (m.accesses ss ws).filterMap (·.loaded? Register.status) = ss := by
  have hq : ∀ args, (storedSlots 0 args).filterMap (·.loaded? Register.status) = [] := fun args =>
    List.filterMap_eq_nil_iff.mpr fun x hx => by
      obtain ⟨p, -, rfl⟩ := List.mem_map.mp hx
      rfl
  have hl : (loadedSlots 0 ws).filterMap (·.loaded? Register.status) = [] := by
    refine List.filterMap_eq_nil_iff.mpr fun x hx => ?_
    have hne := (address_ne (Nat.le_trans hA.length_le hr) (Or.inr hx)).2
    obtain ⟨p, -, rfl⟩ := List.mem_map.mp hx
    exact if_neg hne
  have hs : (ss.map (Register.Access.load Register.status)).filterMap (·.loaded? Register.status) =
      ss := by
    simp only [List.filterMap_map, Function.comp_def, Register.Access.loaded?, if_true,
      List.filterMap_some]
  rw [accesses, request, List.filterMap_append, List.filterMap_append, hs, hl, List.append_nil,
    List.filterMap_cons_none rfl, List.filterMap_append, hq]
  rfl

/-- The firmware is started once. -/
theorem filter_messageId {m : Message} {polls : Nat} {ss ws : List UInt32}
    (hA : m.Answered polls ss ws) (ha : m.args.length ≤ Register.slotCount)
    (hr : m.responseLength ≤ Register.slotCount) :
    (m.accesses ss ws).filter (·.address = Register.messageId) =
      [.store Register.messageId m.id.number] := by
  have hn : ∀ as : List Register.Access, (∀ x ∈ as, x.address ≠ Register.messageId) →
      as.filter (·.address = Register.messageId) = [] := fun as h =>
    List.filter_eq_nil_iff.mpr fun x hx => by simpa using h x hx
  have hs : ∀ x ∈ ss.map (Register.Access.load Register.status), x.address ≠ Register.messageId := by
    intro x hx
    obtain ⟨s, -, rfl⟩ := List.mem_map.mp hx
    show Register.status ≠ Register.messageId
    decide
  rw [accesses, request, List.filter_append, List.filter_append, hn _ hs,
    hn _ fun x hx => (address_ne (Nat.le_trans hA.length_le hr) (Or.inr hx)).1,
    List.filter_cons_of_neg (by decide), List.filter_append,
    hn _ fun x hx => (address_ne ha (Or.inl hx)).1]
  rfl

theorem refusal?_eq_none_iff {m : MessageId} {highest : Option MessageId} {polls s : UInt32} :
    refusal? m highest polls s = none ↔ s = Status.ok := by
  unfold refusal?
  constructor
  · intro h
    repeat' split at h
    all_goals simp_all
  · rintro rfl
    rfl

theorem outcome_eq_ok_iff {m : Message} {highest : Option MessageId} {polls : UInt32}
    {ss ws words : List UInt32} :
    m.outcome highest polls ss ws = .ok words ↔ lastStatus ss = Status.ok ∧ words = ws := by
  have hs := @refusal?_eq_none_iff m.id highest polls (lastStatus ss)
  rw [← hs, outcome]
  cases refusal? m.id highest polls (lastStatus ss) with
  | none => simp [eq_comm]
  | some e => simp

/-! ## The loops -/

variable {d : DeviceHandle} {es : List Event}

theorem yields_writeSlots {i : Nat} {ws : List UInt32} {r : Except Error Unit}
    (h : Job.Yields (writeSlots d i ws) es r) :
    (r = .ok () ∧ es = (storedSlots i ws).flatMap (Aperture.hsmp.events d)) ∨
      ∃ e, r = .error e ∧ Cut es ((storedSlots i ws).flatMap (Aperture.hsmp.events d)) e := by
  induction ws generalizing i es with
  | nil =>
    obtain ⟨rfl, rfl⟩ := Job.yields_pure.mp h
    exact Or.inl ⟨rfl, rfl⟩
  | cons w ws ih =>
    rw [writeSlots] at h
    rcases Cut.yields_after Aperture.yields_write h with ⟨e, rfl, hc⟩ | ⟨gs, rfl, hr⟩
    · exact Or.inr ⟨e, rfl, hc.append _⟩
    · rcases ih hr with ⟨rfl, rfl⟩ | ⟨e, rfl, hc⟩
      · exact Or.inl ⟨rfl, rfl⟩
      · exact Or.inr ⟨e, rfl, hc.prepend _⟩

theorem yields_readSlots {i n : Nat} {r : Except Error (List UInt32)}
    (h : Job.Yields (readSlots d i n) es r) :
    ∃ ws : List UInt32, ws.length = n ∧
      ((r = .ok ws ∧ es = (loadedSlots i ws).flatMap (Aperture.hsmp.events d)) ∨
        ∃ e, r = .error e ∧ Cut es ((loadedSlots i ws).flatMap (Aperture.hsmp.events d)) e) := by
  induction n generalizing i es r with
  | zero =>
    obtain ⟨rfl, rfl⟩ := Job.yields_pure.mp h
    exact ⟨[], rfl, Or.inl ⟨rfl, rfl⟩⟩
  | succ n ih =>
    rw [readSlots] at h
    rcases Aperture.yields_read_bind h with ⟨e, rfl, hc⟩ | ⟨w, gs, rfl, hr⟩
    · exact ⟨List.replicate (n + 1) 0, List.length_replicate, Or.inr ⟨e, rfl, (hc 0).append _⟩⟩
    rcases Job.yields_bind.mp hr with ⟨e, rfl, hi⟩ | ⟨fs, gs, ws, rfl, hi, hp⟩
    · obtain ⟨ws, hl, ⟨he, -⟩ | ⟨e', he, hc⟩⟩ := ih hi
      · cases he
      · cases he
        exact ⟨w :: ws, by rw [List.length_cons, hl], Or.inr ⟨e, rfl, hc.prepend _⟩⟩
    · obtain ⟨ws', hl, ⟨he, rfl⟩ | ⟨e', he, -⟩⟩ := ih hi
      · cases he
        obtain ⟨rfl, rfl⟩ := Job.yields_pure.mp hp
        exact ⟨w :: ws, by rw [List.length_cons, hl], Or.inl ⟨rfl, by rw [List.append_nil]; rfl⟩⟩
      · cases he

theorem yields_awaitStatus {interval n : Nat} {r : Except Error UInt32}
    (h : Job.Yields (awaitStatus d interval n) es r) :
    ∃ ss, Polled n ss ∧ ((r = .ok (lastStatus ss) ∧ es = waited d interval ss) ∨
      ∃ e, r = .error e ∧ Cut es (waited d interval ss) e) := by
  induction n generalizing es with
  | zero =>
    obtain ⟨rfl, rfl⟩ := Job.yields_pure.mp h
    exact ⟨[], .out, Or.inl ⟨rfl, rfl⟩⟩
  | succ n ih =>
    rw [awaitStatus] at h
    obtain ⟨_, fs, rfl, hr⟩ := Job.yields_ask_bind.mp h
    rcases Aperture.yields_read_bind hr with ⟨e, rfl, hc⟩ | ⟨s, gs, rfl, hs⟩
    · exact ⟨[Status.ok], .set (by decide), Or.inr ⟨e, rfl, ((hc _).append _).prepend [_]⟩⟩
    by_cases h0 : s = Status.notReady
    · subst h0
      rw [if_pos rfl] at hs
      obtain ⟨ss, hss, ⟨rfl, rfl⟩ | ⟨e, rfl, hc⟩⟩ := ih hs
      · exact ⟨_, .clear hss, Or.inl ⟨by rw [lastStatus_clear], rfl⟩⟩
      · exact ⟨_, .clear hss, Or.inr ⟨e, rfl, hc.prepend (_ :: Aperture.hsmp.loaded d _ _)⟩⟩
    · rw [if_neg h0] at hs
      obtain ⟨rfl, rfl⟩ := Job.yields_pure.mp hs
      exact ⟨[s], .set h0, Or.inl ⟨rfl, rfl⟩⟩

/-! ## The exchange -/

variable {m : Message} {c : Config} {highest : Option MessageId} {r : Except Error (List UInt32)}

/-- What follows the status: the response, or the refusal and for a silent firmware giving up. -/
theorem yields_conclude {polls s : UInt32}
    (h : Job.Yields (match refusal? m.id highest polls s with
      | none => readSlots d 0 m.responseLength
      | some e => do
        if s = Status.notReady then Job.ask .disable
        throw e) es r) :
    (s = Status.ok ∧ Job.Yields (readSlots d 0 m.responseLength) es r) ∨
      ∃ e, refusal? m.id highest polls s = some e ∧ r = .error e ∧
        es = if s = Status.notReady then [⟨.disable, ()⟩] else [] := by
  split at h
  · rename_i hn
    exact Or.inl ⟨refusal?_eq_none_iff.mp hn, h⟩
  · rename_i e he
    refine Or.inr ⟨e, he, ?_⟩
    split at h
    · rename_i h0
      obtain ⟨_, fs, rfl, ht⟩ := Job.yields_ask_bind.mp h
      obtain ⟨rfl, rfl⟩ := Job.yields_throw.mp ht
      exact ⟨rfl, by rw [if_pos h0]⟩
    · rename_i h0
      obtain ⟨rfl, rfl⟩ := Job.yields_throw.mp h
      exact ⟨rfl, by rw [if_neg h0]⟩

/-- A run under the lock is a whole transaction with its outcome, or is cut at a failed access. -/
theorem yields_converse (h : Job.Yields (m.converse c d highest) es r) :
    ∃ ss ws, m.Answered c.polls.toNat ss ws ∧
      ((r = m.outcome highest c.polls ss ws ∧ es = m.transaction c d ss ws ++
          if lastStatus ss = Status.notReady then [⟨.disable, ()⟩] else []) ∨
        ∃ e, r = .error e ∧ Cut es (m.transaction c d ss ws) e) := by
  simp only [transaction_eq]
  obtain ⟨ss₀, hp₀⟩ := exists_polled c.polls.toNat
  obtain ⟨ws₀, h₀⟩ := hp₀.exists_answered m
  rcases Cut.yields_after Aperture.yields_write h with ⟨e, rfl, hc⟩ | ⟨es, rfl, hr⟩
  · exact ⟨ss₀, ws₀, h₀, Or.inr ⟨e, rfl, hc.append _⟩⟩
  rcases Cut.yields_after yields_writeSlots hr with ⟨e, rfl, hc⟩ | ⟨es, rfl, hi⟩
  · exact ⟨ss₀, ws₀, h₀, Or.inr ⟨e, rfl, (hc.append _).prepend _⟩⟩
  rcases Cut.yields_after Aperture.yields_write hi with ⟨e, rfl, hc⟩ | ⟨es, rfl, ha⟩
  · exact ⟨ss₀, ws₀, h₀, Or.inr ⟨e, rfl, ((hc.append _).prepend _).prepend _⟩⟩
  rcases Job.yields_bind.mp ha with ⟨e, rfl, hs⟩ | ⟨fs, gs, s, rfl, hs, hf⟩
  · obtain ⟨ss, hss, ⟨he, -⟩ | ⟨e', he, hc⟩⟩ := yields_awaitStatus hs
    · cases he
    · cases he
      obtain ⟨ws, hA⟩ := hss.exists_answered m
      exact ⟨ss, ws, hA, Or.inr ⟨e, rfl, (((hc.append _).prepend _).prepend _).prepend _⟩⟩
  obtain ⟨ss, hss, hw⟩ := yields_awaitStatus hs
  obtain ⟨rfl, rfl⟩ : s = lastStatus ss ∧ fs = waited d c.interval ss := by
    rcases hw with ⟨he, rfl⟩ | ⟨e, he, -⟩
    · cases he
      exact ⟨rfl, rfl⟩
    · cases he
  rcases yields_conclude hf with ⟨hok, hf⟩ | ⟨e, he, rfl, rfl⟩
  · -- an OK: what is left is the response
    obtain ⟨ws, hl, ⟨rfl, rfl⟩ | ⟨e, rfl, hc⟩⟩ := yields_readSlots hf
    · refine ⟨ss, ws, ⟨hss, by rw [hl, if_pos hok]⟩, Or.inl ⟨?_, ?_⟩⟩
      · rw [outcome, refusal?_eq_none_iff.mpr hok]
      · rw [if_neg (by rw [hok]; decide), List.append_nil]
    · exact ⟨ss, ws, ⟨hss, by rw [hl, if_pos hok]⟩,
        Or.inr ⟨e, rfl, (((hc.prepend _).prepend _).prepend _).prepend _⟩⟩
  · have hok : lastStatus ss ≠ Status.ok := fun hok => by
      rw [refusal?_eq_none_iff.mpr hok] at he
      cases he
    refine ⟨ss, [], ⟨hss, by rw [if_neg hok]; rfl⟩, Or.inl ⟨by rw [outcome, he], ?_⟩⟩
    simp only [loadedSlots, List.zipIdx_nil, List.map_nil, List.flatMap_nil, List.append_nil,
      List.append_assoc]

/-- An exchange is refused before it begins, finds the firmware given up, does not get the lock, or
    runs under it. -/
theorem yields_exchange (h : Job.Yields (m.exchange c d highest) es r) :
    (∃ e, m.checkSize = .error e ∧ r = .error e ∧ es = []) ∨
      (r = .error (.unsupported .disabled) ∧ es = [⟨.isDisabled, true⟩]) ∨
      (∃ e, r = .error e ∧ es = [⟨.isDisabled, false⟩, ⟨.lock c.lockPath, .error e⟩]) ∨
      ∃ fs, es = ⟨.isDisabled, false⟩ :: ⟨.lock c.lockPath, .ok ()⟩ ::
          (fs ++ [⟨.unlock c.lockPath, ()⟩]) ∧ Job.Yields (m.converse c d highest) fs r := by
  rcases Job.yields_bind.mp h with ⟨e, rfl, hs⟩ | ⟨fs, gs, _, rfl, hs, ha⟩
  · obtain ⟨rfl, he⟩ := Job.yields_lift.mp hs
    exact Or.inl ⟨e, he.symm, rfl, rfl⟩
  obtain ⟨rfl, -⟩ := Job.yields_lift.mp hs
  refine Or.inr ?_
  obtain ⟨b, fs, rfl, hb⟩ := Job.yields_ask_bind.mp ha
  cases b with
  | true =>
    rcases Job.yields_bind.mp hb with ⟨e, rfl, ht⟩ | ⟨fs, gs, _, rfl, ht, -⟩
    · obtain ⟨rfl, he⟩ := Job.yields_throw.mp ht
      cases he
      exact Or.inl ⟨rfl, rfl⟩
    · obtain ⟨-, he⟩ := Job.yields_throw.mp ht
      cases he
  | false =>
    rcases Job.yields_locked.mp hb with ⟨e, rfl, rfl⟩ | ⟨fs, rfl, hc⟩
    · exact Or.inr (Or.inl ⟨e, rfl, rfl⟩)
    · exact Or.inr (Or.inr ⟨fs, rfl, hc⟩)

/-- A response has as many words as were asked for. -/
theorem length_of_yields {words : List UInt32} (h : Job.Yields (m.exchange c d highest) es (.ok words)) :
    words.length = m.responseLength := by
  rcases yields_exchange h with ⟨e, -, he, -⟩ | ⟨he, -⟩ | ⟨e, he, -⟩ | ⟨fs, -, hf⟩
  · cases he
  · cases he
  · cases he
  obtain ⟨ss, ws, hA, ⟨hr, -⟩ | ⟨e, he, -⟩⟩ := yields_converse hf
  · obtain ⟨hs, rfl⟩ := outcome_eq_ok_iff.mp hr.symm
    rw [hA.length, if_pos hs]
  · cases he

/-! ## On a machine -/

variable {μ : Type} (M : Machine μ) {w : World μ}

/-- The lock that the machine gives to a process that has not given up is around the exchange. -/
theorem exchange_locked (d : DeviceHandle) (highest : Option MessageId) (hm : m.checkSize = .ok ())
    (hd : w.memory.disabled = false) (hl : (M.lock c.lockPath w.machine).1 = .ok ()) :
    ∃ fs, World.transcript M (m.exchange c d highest) w =
        ⟨.isDisabled, false⟩ :: ⟨.lock c.lockPath, .ok ()⟩ :: (fs ++ [⟨.unlock c.lockPath, ()⟩]) ∧
      Job.Yields (m.converse c d highest) fs (World.run M (m.exchange c d highest) w).1 := by
  rcases yields_exchange (World.yields_transcript M (m.exchange c d highest) w) with
    ⟨e, he, -⟩ | ⟨-, ht⟩ | ⟨e, -, ht⟩ | h
  · rw [hm] at he
    cases he
  · have hb : true = w.memory.disabled := (Program.transcript_cons ht).1
    rw [hd] at hb
    cases hb
  · obtain ⟨-, q, hq⟩ := Program.transcript_cons ht
    have hx : .error e = (M.lock c.lockPath w.machine).1 := (Program.transcript_cons hq).1
    rw [hl] at hx
    cases hx
  · exact h

/-- On a machine that gives the lock, an exchange makes the accesses of a transaction, and it gives
    up on the firmware if the status stayed clear; or it is cut at a failed access and does not. -/
theorem exchange_run {w' : World μ} (hm : m.checkSize = .ok ()) (hd : w.memory.disabled = false)
    (hl : (M.lock c.lockPath w.machine).1 = .ok ())
    (hr : World.run M (m.exchange c d highest) w = (r, w')) :
    ∃ ss ws, m.Answered c.polls.toNat ss ws ∧
      ((r = m.outcome highest c.polls ss ws ∧
          (World.transcript M (m.exchange c d highest) w).filter Event.isAccess =
            (m.accesses ss ws).flatMap (Aperture.hsmp.events d) ∧
          (w'.memory.disabled = true ↔ lastStatus ss = Status.notReady)) ∨
        ∃ e, r = .error e ∧
          Cut ((World.transcript M (m.exchange c d highest) w).filter Event.isAccess)
            ((m.accesses ss ws).flatMap (Aperture.hsmp.events d)) e ∧
          w'.memory.disabled = false) := by
  obtain ⟨fs, ht, hf⟩ := exchange_locked M d highest hm hd hl
  -- giving up is a request of its own, so the events tell whether it came to that
  have hg : w'.memory.disabled = true ↔ ⟨.disable, ()⟩ ∈ fs := by
    have h := World.disabled_run M (m.exchange c d highest).run w
    change (World.run M _ w).2.memory.disabled = true ↔ _ ∨ _ ∈ World.transcript M _ w at h
    rw [hr, hd, ht] at h
    simpa using h
  have hacc : (World.transcript M (m.exchange c d highest) w).filter Event.isAccess =
      fs.filter Event.isAccess := by
    rw [ht]
    simp [Event.isAccess]
  have hquiet : ∀ ss ws, ⟨.disable, ()⟩ ∉ m.transaction c d ss ws := fun ss ws h => by
    rcases of_mem_transaction h with h | h
    · cases h
    · exact Bool.noConfusion (Aperture.of_mem_events h).1
  rw [hr] at hf
  obtain ⟨ss, ws, hA, ⟨rfl, rfl⟩ | ⟨e, rfl, hc⟩⟩ := yields_converse hf
  · refine ⟨ss, ws, hA, Or.inl ⟨rfl, ?_, ?_⟩⟩
    · rw [hacc, List.filter_append, filter_isAccess_transaction]
      split <;> simp [Event.isAccess]
    · rw [hg, List.mem_append, or_iff_right (hquiet ss ws)]
      split
      · rename_i h0
        exact ⟨fun _ => h0, fun _ => List.mem_singleton.mpr rfl⟩
      · rename_i h0
        exact ⟨fun h => absurd h List.not_mem_nil, fun h => absurd h h0⟩
  · refine ⟨ss, ws, hA, Or.inr ⟨e, rfl, ?_, ?_⟩⟩
    · rw [hacc, ← filter_isAccess_transaction m c]
      exact hc.filter_isAccess
    · refine Bool.eq_false_iff.mpr fun h => hquiet ss ws ?_
      exact hc.mem_of_not_isAccess (hg.mp h) rfl

/-- The status words of a transaction are those that its events show. -/
theorem loads_status {polls : Nat} {ss ws : List UInt32} (hA : m.Answered polls ss ws)
    (hr : m.responseLength ≤ Register.slotCount)
    (h : es.filter Event.isAccess = (m.accesses ss ws).flatMap (Aperture.hsmp.events d)) :
    Aperture.hsmp.loads d Register.status es = ss := by
  rw [Aperture.loads, ← Aperture.seen_filter_isAccess, h, Aperture.seen_events (by decide)]
  exact loaded_status hA hr

end FirmwareMailbox.Message
