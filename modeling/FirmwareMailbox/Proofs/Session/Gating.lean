/-
  FirmwareMailbox.Proofs.Session.Gating — no message goes past the gate.

  What is in force is the inventory that the process published last and did not forget since
  (`InForce`). It was published right after a negotiation, and its interface version is the word that
  the mailbox of socket 0 answered there. A word for the message register belongs to a negotiation,
  which goes before any version is known and has messages of its own (`Probing`), or it is the number
  of a message that the inventory in force has (`Warranted`).

  Three facts carry this. The gate hands out the inventory in force and only for a message that it has
  (`Session.gate_ok`). An errand sends no newer message than the gate was asked for
  (`Operation.asks_covers`). And nothing behind the gate publishes or forgets, so the inventory that was
  handed out is in force as long as it is used (`World.Behind`).
-/

import FirmwareMailbox.Proofs.Capability.Versions
import FirmwareMailbox.Proofs.Message.Sending
import FirmwareMailbox.Proofs.Session.Errand
import FirmwareMailbox.Proofs.Session.Remembering

namespace FirmwareMailbox

/-- Changes which inventory is in force. -/
def Request.isInventory : Request → Bool
  | .publish _ | .forget => true
  | _ => false

namespace Capabilities

/-- Asks for the interface version. -/
def versionQuery : Message := { id := .getInterfaceVersion, responseLength := 1 }

/-- A negotiation that succeeds asked socket 0 for the interface version. -/
theorem version_asked {c : Config} {t : Topology} {es : List Event} {caps : Capabilities}
    (h : Job.Yields (negotiate c t) es (.ok caps)) : ∃ tile fs, t.mailboxTile 0 = .ok tile ∧ fs <:+: es ∧
      Job.Yields (versionQuery.exchange c tile.handle none) fs (.ok [caps.interfaceVersion]) := by
  obtain ⟨-, tile, es', htile, hes', hread⟩ := yields_negotiate h
  -- the second word that the versions are read from
  obtain ⟨fs, _, _, rfl, -, hinterface⟩ := Job.yields_bind_ok.mp hread
  obtain ⟨gs, hs, word, rfl, hask, hend⟩ := Job.yields_bind_ok.mp hinterface
  obtain ⟨rfl, hversions⟩ := Job.yields_pure.mp hend
  obtain ⟨ks, ls, words, rfl, hx, hw⟩ := Job.yields_bind_ok.mp hask
  obtain ⟨rfl, hword⟩ := Job.yields_lift.mp hw
  have hwords : words = [caps.interfaceVersion] := by
    obtain ⟨w, rfl⟩ := List.length_eq_one_iff.mp (Message.length_of_yields hx)
    cases hword
    exact congrArg (fun versions => [versions.2]) (Except.ok.inj hversions).symm
  refine ⟨tile, ks, htile, .trans ⟨fs, [], by simp⟩ hes', ?_⟩
  rw [← hwords]
  exact hx

/-- A negotiation sends its own messages. -/
theorem negotiate_sends (c : Config) (t : Topology) :
    Program.Always (Sends fun _ _ n => n ∈ probes.map (·.number)) (negotiate c t).run := by
  refine (Sends.closed _).negotiation c t fun _ tile _ m _ hid es x h => ?_
  refine (Message.exchange_sends c tile.handle m none es x h).mono fun b a n _ _ hn => ?_
  exact hn ▸ List.mem_map_of_mem hid

end Capabilities

/-! ## What is in force -/

/-- The events end in a negotiation that found these capabilities, and the interface version among
    them is what the mailbox of socket 0 answered in it. -/
def Negotiated (es : List Event) (inv : Inventory) : Prop :=
  ∃ (s : Session) (ns : List Event), ns <:+ es ∧
    Job.Yields (Capabilities.negotiate s.config inv.topology) ns (.ok inv.capabilities) ∧
    ∃ tile fs, inv.topology.mailboxTile 0 = .ok tile ∧ fs <:+: ns ∧
      Job.Yields (Capabilities.versionQuery.exchange s.config tile.handle none) fs
        (.ok [inv.capabilities.interfaceVersion])

/-- The inventory was published after a negotiation, and none was published or forgotten since. -/
def InForce (es : List Event) (inv : Inventory) : Prop :=
  ∃ earlier since, es = earlier ++ ⟨.publish inv, ()⟩ :: since ∧
    (∀ x ∈ since, x.request.isInventory = false) ∧ Negotiated earlier inv

/-- The word is sent in a negotiation and is the number of one of its messages. -/
def Probing (before after : List Event) (n : UInt32) : Prop :=
  n ∈ Capabilities.probes.map (·.number) ∧
    ∃ c t r es fs, es <:+ before ∧ fs <+: after ∧ fs ≠ [] ∧
      Job.Yields (Capabilities.negotiate c t) (es ++ fs) r

/-- The word is sent in a negotiation, or is the number of a message that the interface version in
    force has. -/
def Warranted (before after : List Event) (n : UInt32) : Prop :=
  Probing before after n ∨ ∃ (inv : Inventory) (id : MessageId), InForce before inv ∧ n = id.number ∧
    id.minVersion ≤ inv.capabilities.interfaceVersion

theorem Negotiated.prepend {es : List Event} {inv : Inventory} (h : Negotiated es inv) (fs : List Event) :
    Negotiated (fs ++ es) inv := by
  obtain ⟨s, ns, hs, hy⟩ := h
  exact ⟨s, ns, hs.trans (List.suffix_append fs es), hy⟩

theorem Probing.extend {before after : List Event} {n : UInt32} (h : Probing before after n)
    (bs as : List Event) : Probing (bs ++ before) (after ++ as) n := by
  obtain ⟨hn, c, t, r, es, fs, he, hf, hne, hy⟩ := h
  exact ⟨hn, c, t, r, es, fs, he.trans (List.suffix_append _ _), hf.trans (List.prefix_append _ _), hne, hy⟩

/-- The inventory is in force after these events in a process that began with the inventory `i?`. -/
def Holds (i? : Option Inventory) (es : List Event) (inv : Inventory) : Prop :=
  (i? = some inv ∧ ∀ x ∈ es, x.request.isInventory = false) ∨ InForce es inv

/-- What is warranted in a process that began with the inventory `i?`. -/
def WarrantedFrom (i? : Option Inventory) (before after : List Event) (n : UInt32) : Prop :=
  Probing before after n ∨ ∃ (inv : Inventory) (id : MessageId), Holds i? before inv ∧ n = id.number ∧
    id.minVersion ≤ inv.capabilities.interfaceVersion

theorem Holds.trans {i? j? : Option Inventory} {es fs : List Event} {inv : Inventory}
    (hj : ∀ inv, j? = some inv → Holds i? es inv) (h : Holds j? fs inv) : Holds i? (es ++ fs) inv := by
  rcases h with ⟨hi, hfs⟩ | ⟨earlier, since, rfl, hsince, hn⟩
  · rcases hj inv hi with ⟨hi', hes⟩ | ⟨earlier, since, rfl, hsince, hn⟩
    · refine Or.inl ⟨hi', fun x hx => ?_⟩
      exact (List.mem_append.mp hx).elim (hes x) (hfs x)
    · refine Or.inr ⟨earlier, since ++ fs, by simp, fun x hx => ?_, hn⟩
      exact (List.mem_append.mp hx).elim (hsince x) (hfs x)
  · exact Or.inr ⟨es ++ earlier, since, by simp, hsince, hn.prepend es⟩

namespace Session

open World

variable {μ : Type} {M : Machine μ} {s : Session} {w w' : World μ} {es : List Event}

/-- A session sends nothing before it negotiates. -/
theorem survey_sends : Program.Always (Sends fun _ _ _ => False) survey.run := by
  refine survey_closed (Sends.closed _) ?_ Topology.ofDevices_sends
  intro q hq es x h
  obtain rfl := Program.yields_request.mp h
  refine .quiet fun y hy => ?_
  obtain rfl := List.mem_singleton.mp hy
  rintro ⟨d, a, -, n, h⟩
  rcases hq with rfl | rfl | rfl <;> cases h

theorem learn_sends {r : Except Error Inventory} (h : Runs M s.learn w es r w') : Sends Probing es := by
  rcases runs_learn.mp h with ⟨e, -, hs⟩ | ⟨p, t, cpus, ks, u, ns, x, hs, hn, rfl, -⟩
  · exact (survey_sends es _ hs.yields).mono fun _ _ _ _ _ hF => hF.elim
  have hks : Sends (fun _ _ _ => False) ks := survey_sends ks _ hs.yields
  suffices hns : Sends Probing ns from
    hks.append hns (fun _ _ _ hF => hF.elim) fun b a n hp => by simpa using hp.extend ks []
  obtain ⟨fs, v, hc, hend⟩ := runs_negotiate.mp hn
  have hfs : Sends Probing fs := by
    refine (Capabilities.negotiate_sends s.config t fs _ hc.yields).mono fun b a n he ha hid => ?_
    refine ⟨hid, s.config, t, x, b, a, List.suffix_refl b, List.prefix_refl a, ha, ?_⟩
    exact he ▸ hc.yields
  rcases hend with ⟨e, -, -, rfl, -⟩ | ⟨-, rfl, -⟩
  · have hd : Sends (fun _ _ _ => False) [(⟨.disable, ()⟩ : Event)] := .quiet (by simp [Request.isStore])
    exact hfs.append hd (fun b a n hp => by simpa using hp.extend [] _) fun _ _ _ hF => hF.elim
  · exact hfs

theorem learn_negotiated {inv : Inventory} (h : Runs M s.learn w es (.ok inv) w') : Negotiated es inv := by
  obtain ⟨ks, ns, u, rfl, -, hc⟩ := runs_learn_ok.mp h
  exact ⟨s, ns, List.suffix_append ks ns, hc.yields, Capabilities.version_asked hc.yields⟩

/-- An inventory is kept back only from a message that its version lacks. -/
theorem letPass_eq_error {m? : Option MessageId} {inv : Inventory} {e : Error} (h : letPass m? inv = .error e) :
    ∃ id, m? = some id ∧ e = .versionMismatch id id.minVersion inv.capabilities.interfaceVersion := by
  cases m? with
  | none => cases h
  | some id =>
    rw [letPass, Capabilities.require_eq] at h
    split at h <;> cases h
    exact ⟨id, rfl, rfl⟩

/-- Asked for a message, the gate does what it does without one and then looks at the version. -/
theorem gate_some (s : Session) (id : MessageId) :
    s.gate (some id) = s.gate none >>= fun inv => liftM (letPass (some id) inv) := by
  simp only [gate_eq, bind_assoc, letPass, Job.lift_ok, pure_bind]

/-- The gate hands out what is remembered from then on, and only for a message that it has. -/
theorem gate_ok {m? : Option MessageId} {inv : Inventory} (h : Runs M (s.gate m?) w es (.ok inv) w') :
    w'.memory.inventory = some inv ∧
      ∀ id, m? = some id → id.minVersion ≤ inv.capabilities.interfaceVersion := by
  have hpass : ∀ {inv' : Inventory}, .ok inv = letPass m? inv' →
      inv = inv' ∧ ∀ id, m? = some id → id.minVersion ≤ inv.capabilities.interfaceVersion := by
    intro inv' hl
    obtain rfl := letPass_eq_ok hl.symm
    refine ⟨rfl, fun id hid => ?_⟩
    subst hid
    simp only [letPass, Capabilities.require_eq] at hl
    by_cases hv : id.minVersion ≤ inv.capabilities.interfaceVersion
    · exact hv
    · rw [if_neg hv] at hl
      cases hl
  generalize hr : Except.ok inv = r at h
  cases runs_gate h with
  | denied => cases hr
  | disabled => cases hr
  | failed => cases hr
  | known _ _ hi =>
    obtain ⟨rfl, hid⟩ := hpass hr
    exact ⟨hi, hid⟩
  | learned =>
    obtain ⟨rfl, hid⟩ := hpass hr
    exact ⟨rfl, hid⟩

end Session

namespace World

variable {μ α β : Type} {M : Machine μ} {s : Session} {w w' : World μ} {es : List Event}

/-! ## Through the gate -/

/-- What the process sends is warranted, and what it remembers is in force. -/
structure Gated (w : World μ) (es : List Event) (w' : World μ) : Prop where
  inventory : ∀ inv, w'.memory.inventory = some inv → Holds w.memory.inventory es inv
  sends : Sends (WarrantedFrom w.memory.inventory) es

namespace Gated

theorem composes : Composes (Gated (μ := μ)) where
  refl w := ⟨fun _ h => Or.inl ⟨h, by simp⟩, .quiet (by simp)⟩
  trans {w es u fs v} h h' := by
    refine ⟨fun inv hv => .trans h.inventory (h'.inventory inv hv), h.sends.append h'.sends ?_ ?_⟩
    · rintro b a n (hp | hw)
      · exact Or.inl (by simpa using hp.extend [] fs)
      · exact Or.inr hw
    · rintro b a n (hp | ⟨inv, id, hi, hn, hid⟩)
      · exact Or.inl (by simpa using hp.extend es [])
      · exact Or.inr ⟨inv, id, .trans h.inventory hi, hn, hid⟩

/-- Questions send nothing and change nothing. -/
theorem of_quiet (hi : w'.memory.inventory = w.memory.inventory)
    (hq : ∀ x ∈ es, x.request.isInventory = false) (hs : ∀ x ∈ es, ¬ x.request.isStore) : Gated w es w' :=
  ⟨fun _ h => Or.inl ⟨hi ▸ h, hq⟩, .quiet hs⟩

/-- The gate learns the machine if it has to, and what it learned is in force from then on. -/
theorem gate (s : Session) (m? : Option MessageId) : Conducts M Gated (s.gate m?).run := by
  have hlearn : ∀ {fs : List Event} {r : Except Error Inventory} {w u : World μ},
      Runs M s.learn w fs r u → Sends (WarrantedFrom none)
        ([⟨.isPrivileged, true⟩, ⟨.isDisabled, false⟩, ⟨.recall, none⟩] ++ fs) := by
    intro fs r w u h
    have hasks : Sends (fun _ _ _ => False)
        [(⟨.isPrivileged, true⟩ : Event), ⟨.isDisabled, false⟩, ⟨.recall, none⟩] :=
      .quiet (by simp [Request.isStore])
    refine hasks.append (Session.learn_sends h) (fun _ _ _ hF => hF.elim) fun b a n hp => Or.inl ?_
    simpa using hp.extend [⟨.isPrivileged, true⟩, ⟨.isDisabled, false⟩, ⟨.recall, none⟩] []
  refine Conducts.of_runs fun w es r w' h => ?_
  cases Session.runs_gate h with
  | denied => exact .of_quiet rfl (by simp [Request.isInventory]) (by simp [Request.isStore])
  | disabled => exact .of_quiet rfl (by simp [Request.isInventory]) (by simp [Request.isStore])
  | known => exact .of_quiet rfl (by simp [Request.isInventory]) (by simp [Request.isStore])
  | failed _ _ hn hl =>
    refine ⟨fun inv hi => ?_, hn ▸ hlearn hl⟩
    rw [inventory_learn hl, hn] at hi
    cases hi
  | @learned fs inv u _ _ hn hl =>
    refine ⟨fun inv' hi => Or.inr ?_, ?_⟩
    · cases hi
      refine ⟨[⟨.isPrivileged, true⟩, ⟨.isDisabled, false⟩, ⟨.recall, none⟩] ++ fs, [], by simp, by simp, ?_⟩
      exact (Session.learn_negotiated hl).prepend _
    · have hpublish : Sends (fun _ _ _ => False) [(⟨.publish inv, ()⟩ : Event)] :=
        .quiet (by simp [Request.isStore])
      rw [hn, ← List.append_assoc]
      refine (hlearn hl).append hpublish ?_ fun _ _ _ hF => hF.elim
      rintro b a n (hp | hw)
      · exact Or.inl (by simpa using hp.extend [] [⟨.publish inv, ()⟩])
      · exact Or.inr hw

end Gated

/-! ## Behind the gate -/

/-- In a process that remembers the inventory, all that the job sends is warranted, and it still
    remembers it afterwards. -/
def Behind (M : Machine μ) (inv : Inventory) (j : Job α) : Prop :=
  ∀ w es r w', w.memory.inventory = some inv → Runs M j w es r w' →
    Gated w es w' ∧ w'.memory.inventory = some inv

/-- What follows the gate is behind it. -/
theorem Gated.gate_bind {m? : Option MessageId} {f : Inventory → Job α}
    (hf : ∀ inv : Inventory, (∀ id, m? = some id → id.minVersion ≤ inv.capabilities.interfaceVersion) →
      Behind M inv (f inv)) : Conducts M Gated (s.gate m? >>= f).run := by
  refine Conducts.of_runs fun w es r w' h => ?_
  rcases runs_bind.mp h with ⟨e, rfl, hg⟩ | ⟨fs, gs, inv, u, rfl, hg, hrest⟩
  · exact (gate s m?).runs hg
  · obtain ⟨hu, hid⟩ := Session.gate_ok hg
    exact composes.trans ((gate s m?).runs hg) (hf inv hid _ _ _ _ hu hrest).1

namespace Behind

variable {inv : Inventory} {m : Message}

theorem lift (x : Except Error α) : Behind M inv (liftM x) := by
  intro w es r w' hw h
  obtain ⟨rfl, -, rfl⟩ := runs_lift.mp h
  exact ⟨Gated.composes.refl _, hw⟩

theorem bind {j : Job α} {f : α → Job β} (hj : Behind M inv j) (hf : ∀ a, Behind M inv (f a)) :
    Behind M inv (j >>= f) := by
  intro w es r w' hw h
  rcases runs_bind.mp h with ⟨e, -, hfail⟩ | ⟨fs, gs, a, u, rfl, hok, hrest⟩
  · exact hj _ _ _ _ hw hfail
  · obtain ⟨hg, hu⟩ := hj _ _ _ _ hw hok
    obtain ⟨hg', hw'⟩ := hf a _ _ _ _ hu hrest
    exact ⟨Gated.composes.trans hg hg', hw'⟩

/-- Nothing is published or forgotten in an exchange, and it sends one message. -/
theorem exchange (hid : m.id.minVersion ≤ inv.capabilities.interfaceVersion) (c : Config)
    (d : DeviceHandle) (highest : Option MessageId) : Behind M inv (m.exchange c d highest) := by
  intro w es r w' hw h
  have hkeep : w'.memory.inventory = w.memory.inventory := (inventory_exchange c d m highest).runs h
  have hquiet : ∀ x ∈ es, x.request.isInventory = false := by
    intro x hx
    have hq := Program.Yields.only (Message.exchange_only d c m highest) h.yields x hx
    cases hxq : x.request <;> rw [hxq] at hq <;> first | rfl | cases hq
  refine ⟨⟨fun inv' hi => Or.inl ⟨hkeep ▸ hi, hquiet⟩, ?_⟩, hkeep.trans hw⟩
  refine (Message.exchange_sends c d m highest es _ h.yields).mono fun b a n he _ hn => ?_
  refine Or.inr ⟨inv, m.id, Or.inl ⟨hw, fun x hx => ?_⟩, hn, hid⟩
  exact hquiet x (he ▸ List.mem_append_left a hx)

theorem deliver (hid : m.id.minVersion ≤ inv.capabilities.interfaceVersion) (n : Nat) :
    Behind M inv (s.deliver inv n m) :=
  (lift _).bind fun _ => exchange hid _ _ _

theorem deliverAll (hid : m.id.minVersion ≤ inv.capabilities.interfaceVersion) :
    Behind M inv (s.deliverAll inv m) := by
  have h : ∀ k i, Behind M inv (s.deliverFrom inv m i k) := by
    intro k
    induction k with
    | zero => exact fun _ => lift (.ok ())
    | succ k ih => exact fun i => (deliver hid i).bind fun _ => ih (i + 1)
  exact h _ _

/-- The gate hands out the same inventory again. -/
theorem gate {m? : Option MessageId} {f : Inventory → Job α} (hf : Behind M inv (f inv)) :
    Behind M inv (s.gate m? >>= f) := by
  intro w es r w' hw h
  have hknown : ∀ {fs x u}, Runs M (s.gate m?) w fs x u → Gated w fs u ∧ u = w ∧
      ∀ inv', x = .ok inv' → inv' = inv := by
    intro fs x u hg
    obtain ⟨hu, -, hsame⟩ := gate_known (M := M) hw s m?
    rw [hg.run] at hu hsame
    exact ⟨(Gated.gate s m?).runs hg, hu, hsame⟩
  rcases runs_bind.mp h with ⟨e, -, hg⟩ | ⟨fs, gs, inv', u, rfl, hg, hrest⟩
  · obtain ⟨hgated, rfl, -⟩ := hknown hg
    exact ⟨hgated, hw⟩
  · obtain ⟨hgated, rfl, hsame⟩ := hknown hg
    obtain rfl := hsame inv' rfl
    obtain ⟨hrest, hw'⟩ := hf _ _ _ _ hw hrest
    exact ⟨Gated.composes.trans hgated hrest, hw'⟩

/-- An errand sends no newer message than the gate was asked for. -/
theorem errand (op : Operation) (hid : ∀ id, op.asks = some id →
    id.minVersion ≤ inv.capabilities.interfaceVersion) :
    Behind M inv (liftM (op.errand inv) >>= fun e => e.perform s inv) := by
  cases he : op.errand inv with
  | error e => exact lift (.error e)
  | ok e =>
    obtain ⟨hm, -⟩ := Operation.errand_message he
    have hcovered : ∀ m, e.message? = some m → m.id.minVersion ≤ inv.capabilities.interfaceVersion := by
      intro m hem
      rw [hem] at hm
      obtain ⟨asked, hasks, hle⟩ := op.asks_covers hm.symm
      exact UInt32.le_trans hle (hid asked hasks)
    cases e with
    | known x => exact lift x
    | send n m read => exact (deliver (hcovered m rfl) n).bind fun words => lift (read words)
    | sendAll m => exact (deliverAll (hcovered m rfl)).bind fun _ => lift (.ok _)

end Behind

/-! ## Whole runs -/

namespace Gated

/-- Every operation has its errand behind the gate. -/
theorem operation (s : Session) (op : Operation) : Conducts M Gated (op.perform s).run := by
  have hbehind : ∀ op : Operation, Conducts M Gated (op.behindGate s).run :=
    fun op => gate_bind fun inv hid => .errand op hid
  by_cases ha : op = .setLinkWidthAuto
  · subst ha
    rw [Operation.perform_linkWidthAuto]
    refine gate_bind fun inv hid => ?_
    rw [Operation.perform_eq s _ (by simp)]
    split
    · exact Behind.lift (.error _)
    · exact Behind.gate (.errand _ hid)
  · rw [Operation.perform_eq s op ha]
    split
    · exact Conducts.done composes _
    · exact hbehind op

theorem exchange (s : Session) (n : Nat) (m : Message) : Conducts M Gated (s.exchange n m).run :=
  gate_bind fun _ hid => .deliver (hid m.id rfl) n

theorem map (f : α → β) {j : Job α} (hj : Conducts M Gated j.run) : Conducts M Gated (f <$> j).run := by
  rw [map_eq_pure_bind]
  exact Conducts.job_bind composes hj fun _ => .done composes _

/-- So has every exchange of what an exporter asks. -/
theorem ask (s : Session) (n : Nat) (m : MessageId) : Conducts M Gated (Exporter.ask s n m).run :=
  (Conducts.closed composes).exchanged (fun n m _ => exchange s n m) (Exporter.ask_exchanged s n m)

theorem forget (s : Session) : Conducts M Gated s.forget.run := by
  refine Conducts.of_runs fun w es r w' h => ?_
  obtain ⟨rfl, -, rfl⟩ := runs_ask.mp h
  exact ⟨fun inv hi => (by cases hi), .quiet (by simp [Request.isStore])⟩

theorem move (m : Move μ) (w : World μ) : Gated w (m.events M w) (m.world M w) := by
  match m with
  | .step s (.operation op) => exact operation s op w
  | .step s (.gate m?) => exact map _ (gate s m?) w
  | .step s (.exchange n m) => exact map _ (exchange s n m) w
  | .step s .forget => exact map _ (forget s) w
  | .refresh e =>
    refine (Conducts.closed composes).refresh (fun w => ?_) ask e w
    exact .of_quiet rfl (by simp [Program.request, Program.transcript, Request.isInventory])
      (by simp [Program.request, Program.transcript, Request.isStore])
  | .change f => exact .of_quiet rfl (by intro x hx; cases hx) (by intro x hx; cases hx)

end Gated

/-- On any machine, whatever a process does and however the machine changes meanwhile: a word for the
    message register belongs to a negotiation, or it is the number of a message that came with the
    interface version in force or before, and that version is what socket 0 answered in the negotiation
    that put it in force. The gate permits a message if and only if the version has it; so a newer version
    permits what an older one does, and version 0 permits nothing. A message that it refuses needs a
    version newer than the one in force: whatever was to follow, all that happens is what happens
    without a message, which is nothing but questions once the machine is known. -/
theorem gate_never_bypassed (M : Machine μ) :
    (∀ (m : μ) (moves : List (Move μ)), Sends Warranted (trace M moves ⟨m, {}⟩)) ∧
    (∀ (caps : Capabilities) (id : MessageId),
      (caps.permits id = true ↔ id.minVersion ≤ caps.interfaceVersion) ∧
      (∀ newer : Capabilities, caps.interfaceVersion ≤ newer.interfaceVersion →
        caps.permits id = true → newer.permits id = true) ∧
      (caps.interfaceVersion = 0 → caps.permits id = false)) ∧
    ∀ (s : Session) (w : World μ) (id : MessageId) (inv : Inventory),
      let opened := World.run M (s.gate none) w
      opened.1 = .ok inv →
      (id.minVersion ≤ inv.capabilities.interfaceVersion → World.run M (s.gate (some id)) w = opened) ∧
      (¬ id.minVersion ≤ inv.capabilities.interfaceVersion → ∀ f : Inventory → Job α,
        inv.capabilities.interfaceVersion < id.minVersion ∧
        World.run M (s.gate (some id) >>= f) w =
          (.error (.versionMismatch id id.minVersion inv.capabilities.interfaceVersion), opened.2) ∧
        World.transcript M (s.gate (some id) >>= f) w = World.transcript M (s.gate none) w ∧
        (w.memory.inventory = some inv → opened.2 = w ∧
          ∀ x ∈ World.transcript M (s.gate none) w,
            x.request = .isPrivileged ∨ x.request = .isDisabled ∨ x.request = .recall)) := by
  refine ⟨fun m moves => ?_, fun caps id => ⟨?_, fun newer hle hp => ?_, fun h0 => ?_⟩,
    fun s w id inv hopen => ⟨fun hv => ?_, fun hv f => ?_⟩⟩
  · refine (Gated.composes.all Gated.move moves ⟨m, {}⟩).sends.mono fun b a n _ _ hw => ?_
    rcases hw with hp | ⟨inv, id, ⟨hnone, -⟩ | hi, hn, hid⟩
    · exact Or.inl hp
    · cases hnone
    · exact Or.inr ⟨inv, id, hi, hn, hid⟩
  · rw [Capabilities.permits_iff, decide_eq_true_eq]
  · rw [Capabilities.permits_iff, decide_eq_true_eq] at hp ⊢
    exact UInt32.le_trans hp hle
  · rw [Capabilities.permits_iff, h0, decide_eq_false_iff_not]
    cases id <;> decide
  · have hrun : World.run M (s.gate none) w = (.ok inv, (World.run M (s.gate none) w).2) := Prod.ext hopen rfl
    have hpass : Session.letPass (some id) inv = .ok inv := by
      simp only [Session.letPass, Capabilities.require_eq, if_pos hv, Except.map]
    rw [Session.gate_some, run_bind_ok hrun, hpass]
    exact hrun.symm
  · have hrefuse : Session.letPass (some id) inv =
        .error (.versionMismatch id id.minVersion inv.capabilities.interfaceVersion) := by
      simp only [Session.letPass, Capabilities.require_eq, if_neg hv, Except.map]
    have hruns : Runs M (s.gate (some id) >>= f) w (World.transcript M (s.gate none) w)
        (.error (.versionMismatch id id.minVersion inv.capabilities.interfaceVersion))
        (World.run M (s.gate none) w).2 := by
      have hnone : Runs M (s.gate none) w _ (.ok inv) (World.run M (s.gate none) w).2 :=
        ⟨Prod.ext hopen rfl, rfl⟩
      rw [Session.gate_some, bind_assoc]
      refine runs_bind.mpr (Or.inr ⟨_, [], inv, _, (List.append_nil _).symm, hnone, ?_⟩)
      rw [hrefuse]
      exact runs_bind.mpr (Or.inl ⟨_, rfl, runs_throw.mpr ⟨rfl, rfl, rfl⟩⟩)
    refine ⟨UInt32.not_le.mp hv, hruns.run, hruns.transcript, fun hi => ?_⟩
    obtain ⟨hw, hq, -⟩ := gate_known (M := M) hi s none
    exact ⟨hw, hq⟩

/-- A process that knows its machine, whose firmware has version 2 of the interface. -/
def dated : World Simulation.State :=
  ⟨Topology.crossed, { inventory := some ⟨⟨.amd, 0x19, 1, 1⟩, Topology.crossedTable, ⟨[]⟩, ⟨{}, 2⟩⟩ }⟩

theorem dated_refuses_bandwidth :
    let s : Session := ⟨Simulation.config⟩
    let m : Message := { id := .getDdrBandwidth, responseLength := 1 }
    Sends Warranted (trace Simulation.machine [.step s (.exchange 0 m)] ⟨Topology.crossed, {}⟩) ∧
      World.run Simulation.machine (s.gate (some .setNbioDpmLevel)) dated =
        World.run Simulation.machine (s.gate none) dated ∧
      World.run Simulation.machine (s.exchange 0 m) dated =
        (.error (.versionMismatch .getDdrBandwidth 3 2), dated) ∧
      Capabilities.permits ⟨{}, 7⟩ .setNbioDpmLevel = true ∧
      Capabilities.permits ⟨{}, 0⟩ .test = false := by
  obtain ⟨hsends, hpermits, hgate⟩ := gate_never_bypassed (α := List UInt32) Simulation.machine
  have hknown : (World.run Simulation.machine (Session.gate ⟨Simulation.config⟩ none) dated).1 =
      .ok ⟨⟨.amd, 0x19, 1, 1⟩, Topology.crossedTable, ⟨[]⟩, ⟨{}, 2⟩⟩ := by
    decide +kernel
  obtain ⟨hpass, -⟩ := hgate ⟨Simulation.config⟩ dated .setNbioDpmLevel _ hknown
  obtain ⟨-, hrefuse⟩ := hgate ⟨Simulation.config⟩ dated .getDdrBandwidth _ hknown
  obtain ⟨-, hrun, -, hstays⟩ := hrefuse (by decide) fun inv =>
    Session.deliver ⟨Simulation.config⟩ inv 0 { id := .getDdrBandwidth, responseLength := 1 }
  obtain ⟨hiff, hnewer, -⟩ := hpermits ⟨{}, 2⟩ .setNbioDpmLevel
  obtain ⟨-, -, hnone⟩ := hpermits ⟨{}, 0⟩ .test
  refine ⟨hsends _ _, hpass (by decide), ?_, hnewer ⟨{}, 7⟩ (by decide) (hiff.mpr (by decide)), hnone rfl⟩
  rw [(hstays rfl).1] at hrun
  exact hrun

end World

end FirmwareMailbox
