/-
  FirmwareMailbox.Proofs.Storage.Relisting — directories that list their entries in another order.

  Two trees are relisted if one is the other but for the order of the entries in its directories
  (`Node.Relisted`). Whoever goes by names does not notice: what is at some names is the same up to
  relisting (`Relisted.get`), what is put there leaves the trees relisted (`Relisted.put`), and a path leads
  to the same place. Only who lists a directory gets the entries in another order: a scan finds the same
  addresses, permuted (`matching_perm`).
-/

import FirmwareMailbox.Proofs.Storage.Lock
import FirmwareMailbox.Storage.Scan
import Mathlib.Data.List.Perm.Basic

namespace FirmwareMailbox

/-- Two computations fail for the same reason, or end in values that are so related. -/
inductive SameEnd {ε α β : Type} (R : α → β → Prop) : Except ε α → Except ε β → Prop
  | ok {a : α} {b : β} : R a b → SameEnd R (.ok a) (.ok b)
  | error (e : ε) : SameEnd R (.error e) (.error e)

namespace SameEnd

variable {ε α β γ δ : Type}

theorem refl {R : α → α → Prop} (hR : ∀ a, R a a) (x : Except ε α) : SameEnd R x x := by
  cases x with
  | ok a => exact .ok (hR a)
  | error e => exact .error e

theorem trans {R : α → α → Prop} (hR : ∀ a b c, R a b → R b c → R a c) {x y z : Except ε α}
    (h : SameEnd R x y) (h' : SameEnd R y z) : SameEnd R x z := by
  cases h with
  | ok hab =>
    cases h' with
    | ok hbc => exact .ok (hR _ _ _ hab hbc)
  | error e => exact h'

theorem bind {R : α → β → Prop} {S : γ → δ → Prop} {x : Except ε α} {y : Except ε β} {f : α → Except ε γ}
    {g : β → Except ε δ} (h : SameEnd R x y) (hf : ∀ a b, R a b → SameEnd S (f a) (g b)) :
    SameEnd S (x >>= f) (y >>= g) := by
  cases h with
  | ok hab => exact hf _ _ hab
  | error e => exact .error e

theorem elim {R : α → β → Prop} {x : Except ε α} {y : Except ε β} (h : SameEnd R x y) :
    (∃ a b, x = .ok a ∧ y = .ok b ∧ R a b) ∨ ∃ e, x = .error e ∧ y = .error e := by
  cases h with
  | ok hab => exact Or.inl ⟨_, _, rfl, rfl, hab⟩
  | error e => exact Or.inr ⟨e, rfl, rfl⟩

end SameEnd

namespace Storage

namespace Node

/-- The same files, in directories that may list their entries in another order. No directory has two
    entries of one name. -/
inductive Relisted : Node → Node → Prop
  | refl (n : Node) : Relisted n n
  | order {es es' : List (String × Node)} : (es.map (·.1)).Nodup → es.Perm es' →
      Relisted (.directory es) (.directory es')
  | entry {n n' : Node} (name : String) (before after : List (String × Node)) : Relisted n n' →
      Relisted (.directory (before ++ (name, n) :: after)) (.directory (before ++ (name, n') :: after))
  | trans {n n' n'' : Node} : Relisted n n' → Relisted n' n'' → Relisted n n''

/-! ## Entries -/

section

variable {name : String} {x : Node} {es es' : List (String × Node)}

theorem child?_eq_some (hn : (es.map (·.1)).Nodup) : child? name es = some x ↔ (name, x) ∈ es := by
  unfold child?
  induction es with
  | nil => simp
  | cons e rest ih =>
    obtain ⟨hnot, hn⟩ := List.nodup_cons.mp hn
    by_cases he : e.1 = name
    · subst he
      have hrest : (e.1, x) ∉ rest := fun h => hnot (List.mem_map.mpr ⟨_, h, rfl⟩)
      simp [hrest, Prod.ext_iff, eq_comm]
    · have hne : (name, x) ≠ e := fun h => he (congrArg Prod.fst h).symm
      simpa [he, hne] using ih hn

theorem child?_perm (hn : (es.map (·.1)).Nodup) (h : es.Perm es') (name : String) :
    child? name es = child? name es' := by
  have hn' : (es'.map (·.1)).Nodup := (h.map _).nodup_iff.mp hn
  refine Option.ext fun x => ?_
  rw [child?_eq_some hn, child?_eq_some hn']
  exact h.mem_iff

/-- In whatever order, the other entries stay. -/
theorem putEntry_perm_cons (hn : (es.map (·.1)).Nodup) (name : String) (x : Node) :
    (putEntry name x es).Perm ((name, x) :: es.filter fun e => e.1 ≠ name) := by
  induction es with
  | nil => exact .refl _
  | cons e rest ih =>
    obtain ⟨hnot, hn⟩ := List.nodup_cons.mp hn
    by_cases he : e.1 = name
    · subst he
      have hrest : rest.filter (fun f => f.1 ≠ e.1) = rest :=
        List.filter_eq_self.mpr fun f hf => by
          simpa using fun h => hnot (List.mem_map.mpr ⟨f, hf, h⟩)
      rw [putEntry, if_pos rfl, List.filter_cons_of_neg (by simp), hrest]
    · rw [putEntry, if_neg he, List.filter_cons_of_pos (by simpa using he)]
      exact ((ih hn).cons e).trans (.swap _ _ _)

theorem putEntry_perm (hn : (es.map (·.1)).Nodup) (h : es.Perm es') (name : String) (x : Node) :
    ((putEntry name x es).map (·.1)).Nodup ∧ (putEntry name x es).Perm (putEntry name x es') := by
  have hn' : (es'.map (·.1)).Nodup := (h.map _).nodup_iff.mp hn
  refine ⟨?_, (putEntry_perm_cons hn name x).trans
    (((h.filter _).cons _).trans (putEntry_perm_cons hn' name x).symm)⟩
  refine ((putEntry_perm_cons hn name x).map _).nodup_iff.mpr ?_
  rw [List.map_cons, List.nodup_cons]
  refine ⟨fun hmem => ?_, hn.sublist (List.filter_sublist.map _)⟩
  obtain ⟨e, he, hname⟩ := List.mem_map.mp hmem
  simp [hname] at he

/-- An entry of the first part comes first. -/
theorem child?_append (name : String) (es es' : List (String × Node)) :
    child? name (es ++ es') = (child? name es).or (child? name es') := by
  unfold child?
  rw [List.find?_append]
  cases es.find? fun e => e.1 = name <;> simp

theorem putEntry_append (name : String) (x : Node) (es es' : List (String × Node)) :
    putEntry name x (es ++ es') =
      if (child? name es).isSome then putEntry name x es ++ es' else es ++ putEntry name x es' := by
  induction es with
  | nil => simp [child?]
  | cons e rest ih =>
    by_cases he : e.1 = name
    · simp [putEntry, child?, he]
    · have hc : child? name (e :: rest) = child? name rest := by simp [child?, he]
      rw [List.cons_append, putEntry, if_neg he, ih, hc, putEntry, if_neg he]
      split <;> rfl

/-- What is put into a directory is put into one of its entries. -/
theorem put_directory (x : Node) (es : List (String × Node)) (name : String) (rest : List String) :
    put x (.directory es) (name :: rest) =
      if child? name es = none ∧ rest ≠ [] then .error .noEntry
      else do
        let new ← put x ((child? name es).getD (.directory [])) rest
        return .directory (putEntry name new es) := by
  cases rest with
  | nil => simp [put]
  | cons next rest =>
    cases hc : child? name es with
    | none => simp [put, hc]
    | some m => simp [put, hc]

end

/-! ## Going by names -/

namespace Relisted

variable {t t' : Node}

theorem get (h : Relisted t t') (ns : List String) : SameEnd Relisted (t.get ns) (t'.get ns) := by
  induction h generalizing ns with
  | refl n => exact .refl .refl _
  | order hn hp =>
    cases ns with
    | nil => exact .ok (.order hn hp)
    | cons name rest =>
      simp only [Node.get, child?_perm hn hp]
      exact .refl .refl _
  | @entry n n' first before after h ih =>
    cases ns with
    | nil => exact .ok (.entry first before after h)
    | cons name rest =>
      simp only [Node.get, child?_append]
      cases hb : child? name before with
      | some m => exact .refl .refl _
      | none =>
        by_cases hf : first = name
        · simpa [child?, hf] using ih rest
        · simp only [child?, List.find?_cons, hf, decide_false, Option.none_or]
          exact .refl .refl _
  | trans _ _ ih ih' => exact (ih ns).trans (fun _ _ _ => .trans) (ih' ns)

/-- Two directories, or the same file. -/
theorem cases (h : Relisted t t') :
    (∃ es es', t = .directory es ∧ t' = .directory es') ∨ t = t' := by
  induction h with
  | refl n => exact Or.inr rfl
  | order _ _ => exact Or.inl ⟨_, _, rfl, rfl⟩
  | entry => exact Or.inl ⟨_, _, rfl, rfl⟩
  | trans _ _ ih ih' =>
    rcases ih with ⟨es, es', rfl, rfl⟩ | rfl
    · rcases ih' with ⟨fs, fs', -, rfl⟩ | rfl
      · exact Or.inl ⟨_, _, rfl, rfl⟩
      · exact Or.inl ⟨_, _, rfl, rfl⟩
    · exact ih'

theorem put (h : Relisted t t') (x : Node) (ns : List String) :
    SameEnd Relisted (Node.put x t ns) (Node.put x t' ns) := by
  induction h generalizing ns with
  | refl n => exact .refl .refl _
  | @order es es' hn hp =>
    cases ns with
    | nil => exact .refl .refl _
    | cons name rest =>
      rw [put_directory, put_directory, child?_perm hn hp]
      split
      · exact .error _
      · refine SameEnd.bind (.refl (R := Eq) (fun _ => rfl) _) fun new _ hnew => ?_
        subst hnew
        obtain ⟨hn', hp'⟩ := putEntry_perm hn hp name new
        exact .ok (.order hn' hp')
  | @entry n n' first before after h ih =>
    cases ns with
    | nil => exact .refl .refl _
    | cons name rest =>
      simp only [put_directory, child?_append, putEntry_append]
      cases hb : child? name before with
      | some m =>
        simp only [Option.some_or, reduceCtorEq, false_and, if_false, Option.isSome_some, if_true]
        refine SameEnd.bind (.refl (R := Eq) (fun _ => rfl) _) fun new _ hnew => ?_
        subst hnew
        exact .ok (.entry first _ after h)
      | none =>
        by_cases hf : first = name
        · -- The names go on into the entry itself.
          subst hf
          have hc (m : Node) : child? first ((first, m) :: after) = some m := by simp [child?]
          simp only [hc, Option.none_or, reduceCtorEq, false_and, if_false, Option.getD_some]
          refine SameEnd.bind (ih rest) fun new new' hnew => ?_
          simp only [putEntry, if_true, Option.isSome_none, Bool.false_eq_true, if_false]
          exact .ok (.entry first before after hnew)
        · have hc (m : Node) : child? name ((first, m) :: after) = child? name after := by
            simp [child?, hf]
          simp only [hc, Option.none_or]
          split
          · exact .error _
          · refine SameEnd.bind (.refl (R := Eq) (fun _ => rfl) _) fun new _ hnew => ?_
            subst hnew
            simp only [putEntry, hf, Option.isSome_none, Bool.false_eq_true, if_false]
            exact .ok (.entry first before (putEntry name new after) h)
  | trans _ _ ih ih' => exact (ih ns).trans (fun _ _ _ => .trans) (ih' ns)

theorem isDirectory (h : Relisted t t') : t.isDirectory = t'.isDirectory := by
  rcases h.cases with ⟨es, es', rfl, rfl⟩ | rfl
  · rfl
  · rfl

theorem readWord (h : Relisted t t') (path : String) (offset : UInt32) :
    t.readWord path offset = t'.readWord path offset := by
  rcases h.cases with ⟨es, es', rfl, rfl⟩ | rfl
  · rfl
  · rfl

theorem writeWord (h : Relisted t t') (path : String) (offset value : UInt32) :
    t.writeWord path offset value = t'.writeWord path offset value := by
  rcases h.cases with ⟨es, es', rfl, rfl⟩ | rfl
  · rfl
  · rfl

/-- A directory has entries of the same names. -/
theorem isSome_child? {es es' : List (String × Node)} (h : Relisted (.directory es) (.directory es'))
    (name : String) : (child? name es).isSome = (child? name es').isSome := by
  have hn := h.get [name]
  simp only [Node.get] at hn
  cases hc : child? name es with
  | none =>
    cases hc' : child? name es' with
    | none => rfl
    | some x =>
      rw [hc, hc'] at hn
      cases hn
  | some x =>
    cases hc' : child? name es' with
    | none =>
      rw [hc, hc'] at hn
      cases hn
    | some x' => rfl

theorem step (h : Relisted t t') (here : List String) (name : String) :
    t.step here name = t'.step here name := by
  unfold Node.step
  rcases (h.get here).elim with ⟨n, n', hg, hg', hn⟩ | ⟨e, hg, hg'⟩
  · rw [hg, hg']
    rcases hn.cases with ⟨es, es', rfl, rfl⟩ | rfl
    · simp only [hn.isSome_child? name]
    · rfl
  · rw [hg, hg']

theorem follow (h : Relisted t t') (here ns : List String) : t.follow here ns = t'.follow here ns := by
  induction ns generalizing here with
  | nil => rfl
  | cons name rest ih =>
    simp only [Node.follow, h.step here name, ih]

theorem locate (h : Relisted t t') (path : String) : t.locate path = t'.locate path := by
  unfold Node.locate
  simp only [h.follow]

end Relisted

end Node

open Node (Relisted)

/-! ## Scans -/

section

variable {t t' : Node} {root : String} {vendor device : UInt16} {first : DeviceHandle}

theorem openConfig_relisted (h : Relisted t t') (root : String) (a : PciAddress) :
    openConfig t root a = openConfig t' root a := by
  unfold openConfig
  rw [h.locate root]
  cases t'.locate root with
  | error e => rfl
  | ok base =>
    simp only [bind, Except.bind, h.follow]
    cases t'.follow base [a.busDirectory, a.slotName] with
    | error e => rfl
    | ok ns =>
      rcases (h.get ns).elim with ⟨n, n', hg, hg', hn⟩ | ⟨e, hg, hg'⟩
      · simp only [hg, hg', hn.isDirectory]
      · simp only [hg, hg']

theorem hasIdentity_relisted (h : Relisted t t') (vendor device : UInt16) :
    hasIdentity t vendor device = hasIdentity t' vendor device := by
  unfold hasIdentity
  rw [h.readWord]

theorem matchesIn_perm (h : Relisted t t') (bus : String) (vendor device : UInt16) :
    (matchesIn bus vendor device t).Perm (matchesIn bus vendor device t') := by
  induction h with
  | refl n => exact .refl _
  | order hn hp => exact hp.filterMap _
  | entry name before after h ih =>
    simp only [matchesIn, List.filterMap_append, List.filterMap_cons, hasIdentity_relisted h]
    exact .refl _
  | trans _ _ ih ih' => exact ih.trans ih'

/-- The same addresses match; the directories decide their order. -/
theorem matching_perm (h : Relisted t t') (vendor device : UInt16) :
    (matching t vendor device).Perm (matching t' vendor device) := by
  induction h with
  | refl n => exact .refl _
  | order hn hp => exact hp.flatMap_right _
  | entry name before after h ih =>
    simp only [matching, List.flatMap_append, List.flatMap_cons]
    exact (.append_left _ ((matchesIn_perm h name vendor device).append_right _))
  | trans _ _ ih ih' => exact ih.trans ih'

/-- A find: the file is that of the device's address. -/
def Finds (tree : Node) (root : String) (a : PciAddress) (d : PciDevice × OpenFile) : Prop :=
  d.1.address = a ∧ openConfig tree root a = .ok d.2

theorem openAll_congr (h : Relisted t t') (as : List PciAddress) :
    openAll t root vendor device first as = openAll t' root vendor device first as := by
  induction as generalizing first with
  | nil => rfl
  | cons a rest ih => simp only [openAll, openConfig_relisted h, ih]

/-- The handles of what is opened count from `first`. -/
theorem openAll_ok {as : List PciAddress} (first : DeviceHandle)
    (h : ∀ a ∈ as, ∃ file, openConfig t root a = .ok file) :
    ∃ found, openAll t root vendor device first as = .ok found ∧
      List.Forall₂ (Finds t root) as found ∧
      found.map (·.1.handle) = List.range' first found.length := by
  induction as generalizing first with
  | nil => exact ⟨[], rfl, .nil, rfl⟩
  | cons a rest ih =>
    obtain ⟨file, ho⟩ := h a (List.mem_cons_self ..)
    obtain ⟨found, hfound, hall, hhandles⟩ :=
      ih (first + 1) fun b hb => h b (List.mem_cons_of_mem _ hb)
    refine ⟨(⟨a, vendor, device, first⟩, file) :: found, ?_, .cons ⟨rfl, ho⟩ hall, ?_⟩
    · simp only [openAll, ho, hfound, bind, Except.bind, pure, Except.pure]
    · rw [List.map_cons, hhandles]
      rfl

theorem openAll_error {as : List PciAddress} (first : DeviceHandle)
    (h : ¬ ∀ a ∈ as, ∃ file, openConfig t root a = .ok file) :
    ∃ a f, openConfig t root a = .error f ∧
      openAll t root vendor device first as = .error (.access f) := by
  induction as generalizing first with
  | nil => exact absurd (fun _ ha => absurd ha (List.not_mem_nil)) h
  | cons a rest ih =>
    cases ho : openConfig t root a with
    | error f => exact ⟨a, f, ho, by simp only [openAll, ho]⟩
    | ok file =>
      have hrest : ¬ ∀ b ∈ rest, ∃ file, openConfig t root b = .ok file := by
        intro hall
        apply h
        intro b hb
        rcases List.mem_cons.mp hb with rfl | hb
        · exact ⟨file, ho⟩
        · exact hall b hb
      obtain ⟨b, f, hf, herr⟩ := ih (first + 1) hrest
      exact ⟨b, f, hf, by simp only [openAll, ho, herr, bind, Except.bind]⟩

/-- A handle is the place of its file among those opened. -/
theorem opened_of_handles {opened : List OpenFile} {found : List (PciDevice × OpenFile)}
    (h : found.map (·.1.handle) = List.range' opened.length found.length) {x : PciDevice × OpenFile}
    (hx : x ∈ found) : (opened ++ found.map (·.2))[x.1.handle]? = some x.2 := by
  obtain ⟨i, hi, rfl⟩ := List.mem_iff_getElem.mp hx
  have hhandle : found[i].1.handle = opened.length + i := by
    have hg := congrArg (·[i]?) h
    simpa [hi] using hg
  rw [hhandle, List.getElem?_append_right (by omega), Nat.add_sub_cancel_left]
  simp [hi]

/-- The same find, by whatever handle. -/
def SameFind (x y : PciDevice × OpenFile) : Prop := x.1.address = y.1.address ∧ x.2 = y.2

/-- How the scans of relisted directories end. What keeps a directory from being listed keeps the other from
    it, but which of the files is the first that cannot be opened is up to the directory. -/
inductive Rescanned (tree : Node) (root : String) (first : DeviceHandle) :
    Except Error (List (PciDevice × OpenFile)) → Except Error (List (PciDevice × OpenFile)) → Prop
  | unlisted (e : BusFault) : Rescanned tree root first (.error (.bus e)) (.error (.bus e))
  | unopened {a a' : PciAddress} {f f' : AccessFault} : openConfig tree root a = .error f →
      openConfig tree root a' = .error f' →
      Rescanned tree root first (.error (.access f)) (.error (.access f'))
  | found {found mid found' : List (PciDevice × OpenFile)} : found.Perm mid →
      List.Forall₂ SameFind mid found' → found.map (·.1.handle) = List.range' first found.length →
      found'.map (·.1.handle) = List.range' first found'.length →
      Rescanned tree root first (.ok found) (.ok found')

theorem finds_perm {as as' : List PciAddress} {found found' : List (PciDevice × OpenFile)}
    (hp : as.Perm as') (h : List.Forall₂ (Finds t root) as found)
    (h' : List.Forall₂ (Finds t root) as' found') :
    ∃ mid, found.Perm mid ∧ List.Forall₂ SameFind mid found' := by
  obtain ⟨mid, hmid, hperm⟩ := List.perm_comp_forall₂ hp.symm h
  refine ⟨mid, hperm.symm, ?_⟩
  clear hp hperm h
  induction h' generalizing mid with
  | nil =>
    cases hmid
    exact .nil
  | cons hx _ ih =>
    cases hmid with
    | cons hy hrest =>
      refine .cons ⟨hy.1.trans hx.1.symm, ?_⟩ (ih _ hrest)
      exact Except.ok.inj (hy.2.symm.trans hx.2)

theorem scan_relisted (h : Relisted t t') (root : String) (vendor device : UInt16) (first : DeviceHandle) :
    Rescanned t root first (scan t root vendor device first) (scan t' root vendor device first) := by
  unfold scan
  have hn : SameEnd Relisted (t.locate root >>= t.get) (t'.locate root >>= t'.get) := by
    rw [h.locate root]
    exact SameEnd.bind (.refl (R := Eq) (fun _ => rfl) _) fun ns _ hns => hns ▸ h.get ns
  rcases hn.elim with ⟨n, n', hg, hg', hn⟩ | ⟨e, hg, hg'⟩
  · simp only [hg, hg', hn.isDirectory]
    split
    · have hperm := matching_perm hn vendor device
      rw [← openAll_congr h]
      by_cases hall : ∀ a ∈ matching n vendor device, ∃ file, openConfig t root a = .ok file
      · obtain ⟨found, hfound, hfinds, hhandles⟩ := openAll_ok first hall
        obtain ⟨found', hfound', hfinds', hhandles'⟩ :=
          openAll_ok first fun a ha => hall a (hperm.mem_iff.mpr ha)
        obtain ⟨mid, hmid, hsame⟩ := finds_perm hperm hfinds hfinds'
        rw [hfound, hfound']
        exact .found hmid hsame hhandles hhandles'
      · have hall' : ¬ ∀ a ∈ matching n' vendor device, ∃ file, openConfig t root a = .ok file :=
          fun hok => hall fun a ha => hok a (hperm.mem_iff.mp ha)
        obtain ⟨a, f, hf, herr⟩ := openAll_error first hall
        obtain ⟨a', f', hf', herr'⟩ := openAll_error first hall'
        rw [herr, herr']
        exact .unopened hf hf'
    · exact .unlisted _
  · simp only [hg, hg']
    exact .unlisted _

end

end Storage

end FirmwareMailbox
