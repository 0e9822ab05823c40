/-
  FirmwareMailbox.Proofs.Message.Sending — which words go to the message register.

  A word goes to a register in two events: its address to the index register of a window, the word to
  the data register. No event comes between the two, so the events tell which words went to the message
  register (`Sends`). An exchange writes the number of its message there and nothing else
  (`Message.exchange_sends`); discovery writes no word at all (`Topology.ofDevices_sends`).
-/

import FirmwareMailbox.Proofs.Machine.Requests

namespace FirmwareMailbox

/-- A word for a register behind a device. -/
def Request.isStore (q : Request) : Prop :=
  ∃ d, ∃ a ∈ [Aperture.smn, Aperture.hsmp], ∃ n, q = .write d a.data n

/-- Every word for a register directly follows its address, and a word for the message register is as
    `R` says of the events before it, of the events from it on, and of the word. -/
def Sends (R : List Event → List Event → UInt32 → Prop) (es : List Event) : Prop :=
  ∀ before x rest, es = before ++ x :: rest → ∀ d, ∀ a ∈ [Aperture.smn, Aperture.hsmp], ∀ n,
    x.request = .write d a.data n →
      ∃ address, before.getLast? = some ⟨.write d a.index address, .ok ()⟩ ∧
        (address = Register.messageId → R before (x :: rest) n)

namespace Sends

variable {R S T : List Event → List Event → UInt32 → Prop} {es fs : List Event}

theorem quiet (h : ∀ x ∈ es, ¬ x.request.isStore) : Sends R es := by
  intro before x rest he d a ha n hx
  exact absurd ⟨d, a, ha, n, hx⟩ (h x (by simp [he]))

/-- A place in two stretches is a place in one of them. -/
theorem append (h : Sends R es) (h' : Sends S fs) (hl : ∀ b a n, R b a n → T b (a ++ fs) n)
    (hr : ∀ b a n, S b a n → T (es ++ b) a n) : Sends T (es ++ fs) := by
  intro before x rest he d a ha n hx
  rcases List.append_eq_append_iff.mp he with ⟨b, rfl, hf⟩ | ⟨b, hes, hf⟩
  · obtain ⟨address, hb, hR⟩ := h' b x rest hf d a ha n hx
    refine ⟨address, ?_, fun h => hr _ _ _ (hR h)⟩
    rw [List.getLast?_append, hb, Option.some_or]
  cases b with
  | nil =>
    -- the second stretch would begin with the word, and its address come before it
    obtain ⟨address, hb, -⟩ := h' [] x rest hf.symm d a ha n hx
    cases hb
  | cons y b =>
    rw [List.cons_append, List.cons.injEq] at hf
    obtain ⟨rfl, rfl⟩ := hf
    obtain ⟨address, hb, hR⟩ := h before x b hes d a ha n hx
    exact ⟨address, hb, fun h => hl _ _ _ (hR h)⟩

theorem mono (h : Sends R es) (hRT : ∀ b a n, es = b ++ a → a ≠ [] → R b a n → T b a n) : Sends T es := by
  intro before x rest he d a ha n hx
  obtain ⟨address, hb, hR⟩ := h before x rest he d a ha n hx
  exact ⟨address, hb, fun h => hRT _ _ _ he (List.cons_ne_nil _ _) (hR h)⟩

/-- What is said of the word alone is said of two stretches together. -/
theorem closed (P : UInt32 → Prop) :
    Program.Closed fun p => Program.Always (Sends fun _ _ n => P n) p :=
  Program.Always.closed (quiet (by simp)) fun h h' => h.append h' (fun _ _ _ hn => hn) fun _ _ _ hn => hn

end Sends

namespace Aperture

variable {P : UInt32 → Prop} {d : DeviceHandle}

theorem index_not_isStore {a : Aperture} (ha : a ∈ [smn, hsmp]) (d : DeviceHandle) (x : UInt32) :
    ¬ (Request.write d a.index x).isStore := by
  rintro ⟨d', a', ha', n, h⟩
  have hne : ∀ a ∈ [smn, hsmp], ∀ a' ∈ [smn, hsmp], a.index ≠ a'.data := by decide
  exact hne a ha a' ha' (Request.write.inj h).2.1

theorem read_sends {a : Aperture} (ha : a ∈ [smn, hsmp]) (x : UInt32) :
    Program.Always (Sends fun _ _ n => P n) (a.read d x).run := by
  have hindex := index_not_isStore ha d x
  have hread : ∀ o, ¬ (Request.read d o).isStore := by
    rintro o ⟨d', a', -, n, h⟩
    cases h
  intro es r h
  refine .quiet fun y hy => ?_
  rcases Job.yields_bind.mp h with ⟨e, rfl, hw⟩ | ⟨fs, gs, u, rfl, hw, hr⟩
  · obtain rfl := Job.yields_write.mp hw
    obtain rfl := List.mem_singleton.mp hy
    exact hindex
  · obtain rfl := Job.yields_write.mp hw
    obtain rfl := Job.yields_read.mp hr
    rcases List.mem_cons.mp hy with rfl | hy
    · exact hindex
    · obtain rfl := List.mem_singleton.mp hy
      exact hread _

theorem write_sends (x v : UInt32) (hv : x = Register.messageId → P v) :
    Program.Always (Sends fun _ _ n => P n) (hsmp.write d x v).run := by
  have hindex := index_not_isStore (a := hsmp) (by decide) d x
  intro es r h
  rcases Job.yields_bind.mp h with ⟨e, rfl, hw⟩ | ⟨fs, gs, u, rfl, hw, hr⟩
  · obtain rfl := Job.yields_write.mp hw
    exact .quiet (by simpa using hindex)
  obtain rfl := Job.yields_write.mp hw
  obtain rfl := Job.yields_write.mp hr
  intro before y rest he d' a ha n hy
  match before, he with
  | [], he =>
    obtain ⟨rfl, -⟩ := List.cons.inj he
    exact absurd ⟨d', a, ha, n, hy⟩ hindex
  | [z], he =>
    obtain ⟨hz, hrest⟩ := List.cons.inj he
    obtain ⟨hy', -⟩ := List.cons.inj hrest
    subst hz hy'
    obtain ⟨rfl, hdata, rfl⟩ := Request.write.inj hy
    have hsame : ∀ a ∈ [smn, hsmp], hsmp.data = a.data → a = hsmp := by decide
    obtain rfl := hsame a ha hdata
    exact ⟨x, rfl, hv⟩
  | _ :: _ :: before, he =>
    have hlen := congrArg List.length he
    simp at hlen

end Aperture

/-- The only word for the message register is the number of the message. -/
theorem Message.exchange_sends (c : Config) (d : DeviceHandle) (m : Message) (highest : Option MessageId) :
    Program.Always (Sends fun _ _ n => n = m.id.number) (m.exchange c d highest).run := by
  refine (Sends.closed _).exchange ?_ (fun _ x _ => Aperture.read_sends (by decide) x)
    (fun x v hv => Aperture.write_sends x v hv.number) c highest
  intro q hq ha es x h
  obtain rfl := Program.yields_request.mp h
  refine .quiet fun y hy => ?_
  obtain rfl := List.mem_singleton.mp hy
  rintro ⟨d', a, -, n, rfl⟩
  cases ha

theorem Topology.ofDevices_sends (devices : List PciDevice) :
    Program.Always (Sends fun _ _ _ => False) (ofDevices devices).run :=
  (Sends.closed _).ofDevices devices fun _ _ _ _ => Aperture.read_sends (by decide) _

end FirmwareMailbox
