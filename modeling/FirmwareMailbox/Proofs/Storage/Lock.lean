/-
  FirmwareMailbox.Proofs.Storage.Lock — a lock that was given back can be taken again.

  Opening a file to be written puts at most one new file into the tree, at a place where nothing was
  before. Every directory stays where it is and keeps its entries (`Keeps`), so the path leads to the
  same file the next time; and every file keeps what is in it (`Grows`).

  Who does not want to wait tries the lock (`tryLock`): it gets a free one (`Free`), and is turned away
  while it is held (`Holds.blocks`). After the lock was given back the storage differs only in that the
  lock's file was opened (`touch_eq_opened`).
-/

import FirmwareMailbox.Storage.Lock

namespace FirmwareMailbox

/-- What is answered to who does not want to wait. -/
def Errno.wouldBlock : Errno := ⟨11⟩

namespace Storage

namespace Node

theorem child?_putEntry (name n : String) (x : Node) (entries : List (String × Node)) :
    child? n (putEntry name x entries) = if n = name then some x else child? n entries := by
  unfold child?
  induction entries with
  | nil => by_cases h : n = name <;> simp [putEntry, h, eq_comm]
  | cons e rest ih =>
    by_cases he : e.1 = name
    · by_cases h : n = name
      · simp [putEntry, he, h]
      · have h' : ¬ name = n := fun hn => h hn.symm
        simp [putEntry, he, h, h']
    · by_cases hn : e.1 = n
      · have h : ¬ n = name := fun h => he (hn.trans h)
        simp [putEntry, hn, h]
      · simpa [putEntry, he, hn] using ih

/-- Every directory is still there, with all its entries' names. -/
def Keeps (tree new : Node) : Prop :=
  ∀ ns entries, tree.get ns = .ok (.directory entries) → ∃ entries', new.get ns = .ok (.directory entries') ∧
    ∀ n, (child? n entries).isSome = true → (child? n entries').isSome = true

theorem get_directory {name : String} {rest : List String} {entries : List (String × Node)} {x : Node}
    (h : child? name entries = some x) : get (.directory entries) (name :: rest) = x.get rest := by
  simp only [get, h]

/-- Going on by names finds its way in a tree that keeps the directories. -/
theorem Keeps.follow {tree new : Node} (h : Keeps tree new) {ns here there : List String}
    (hf : tree.follow here ns = .ok there) : new.follow here ns = .ok there := by
  have hstep : ∀ {here name next}, tree.step here name = .ok next → new.step here name = .ok next := by
    intro here name next hs
    unfold step at hs ⊢
    split at hs
    · rename_i entries hg
      obtain ⟨entries', hg', hk⟩ := h here entries hg
      simp only [hg']
      split at hs
      · rename_i h1; rw [if_pos h1]; exact hs
      rename_i h1
      rw [if_neg h1]
      split at hs
      · rename_i h2; rw [if_pos h2]; exact hs
      rename_i h2
      rw [if_neg h2]
      split at hs
      · cases hs
      rename_i h3
      rw [if_neg h3]
      split at hs
      · rename_i h4; rw [if_pos (hk _ h4)]; exact hs
      · cases hs
    · cases hs
  induction ns generalizing here with
  | nil => exact hf
  | cons name ns ih =>
    simp only [Node.follow] at hf ⊢
    cases hs : tree.step here name with
    | error e => rw [hs] at hf; cases hf
    | ok next =>
      rw [hs] at hf
      rw [hstep hs]
      exact ih hf

/-- To put something below a directory is to put it below the entry of the first name, which is made
    only if it is the last one too. -/
theorem put_cons {n tree new : Node} {name : String} {ns : List String}
    (h : put n tree (name :: ns) = .ok new) :
    ∃ entries made, tree = .directory entries ∧ new = .directory (putEntry name made entries) ∧
      put n ((child? name entries).getD (.directory [])) ns = .ok made ∧
      (child? name entries = none → ns = []) := by
  cases tree with
  | directory entries =>
    have hnew : ∀ old? : Option Node, (put n (old?.getD (.directory [])) ns >>= fun made =>
        pure (.directory (putEntry name made entries))) = .ok new →
        ∃ made, new = .directory (putEntry name made entries) ∧
          put n (old?.getD (.directory [])) ns = .ok made := by
      intro old? h
      cases hp : put n (old?.getD (.directory [])) ns with
      | error e => rw [hp] at h; cases h
      | ok made => rw [hp] at h; cases h; exact ⟨made, rfl, rfl⟩
    cases hc : child? name entries with
    | none =>
      cases ns with
      | nil =>
        simp only [put, hc] at h
        obtain ⟨made, hn, hp⟩ := hnew none h
        exact ⟨entries, made, rfl, hn, by rwa [hc], fun _ => rfl⟩
      | cons m ms => simp only [put, hc] at h; cases h
    | some old =>
      simp only [put, hc] at h
      obtain ⟨made, hn, hp⟩ := hnew (some old) h
      exact ⟨entries, made, rfl, hn, by rwa [hc], fun h' => absurd (hc.symm.trans h') (by simp)⟩
  | _ => cases h

/-- An entry may be exchanged for one that keeps the directories below it, or made. -/
theorem keeps_putEntry {name : String} {made : Node} {entries : List (String × Node)}
    (h : ∀ old, child? name entries = some old → Keeps old made) :
    Keeps (.directory entries) (.directory (putEntry name made entries)) := by
  intro ns es hes
  cases ns with
  | nil =>
    cases hes
    refine ⟨_, rfl, fun n hn => ?_⟩
    rw [child?_putEntry]
    split
    · rfl
    · exact hn
  | cons n ns =>
    simp only [get, child?_putEntry] at hes ⊢
    by_cases hn : n = name
    · subst hn
      rw [if_pos rfl]
      cases hc : child? n entries with
      | none =>
        rw [hc] at hes
        cases hes
      | some old =>
        rw [hc] at hes
        exact h old hc ns es hes
    · rw [if_neg hn]
      exact ⟨es, hes, fun _ h => h⟩

/-- A file put where nothing was: the directories stay, and the file is there. -/
theorem put_file {tree new : Node} {ns : List String} {name : String} {entries : List (String × Node)}
    (hg : tree.get ns = .ok (.directory entries)) (hn : child? name entries = none)
    (h : put (.file []) tree (ns ++ [name]) = .ok new) :
    Keeps tree new ∧ ∃ entries', new.get ns = .ok (.directory entries') ∧
      child? name entries' = some (.file []) := by
  induction ns generalizing tree new with
  | nil =>
    cases hg
    simp only [List.nil_append, put, hn] at h
    cases h
    refine ⟨keeps_putEntry fun old ho => ?_, _, rfl, by rw [child?_putEntry, if_pos rfl]⟩
    rw [hn] at ho
    cases ho
  | cons first ns ih =>
    obtain ⟨es, made, rfl, rfl, hp, -⟩ := put_cons h
    simp only [get] at hg
    cases hc : child? first es with
    | none => rw [hc] at hg; cases hg
    | some old =>
      rw [hc] at hg hp
      obtain ⟨hk, entries', hg', hn'⟩ := ih hg hp
      refine ⟨keeps_putEntry fun old' ho => ?_, entries', ?_, hn'⟩
      · rw [hc] at ho
        cases ho
        exact hk
      · rw [get_directory (by rw [child?_putEntry, if_pos rfl])]
        exact hg'

theorem parent_eq_ok {tree : Node} {ns here : List String} {entries : List (String × Node)} :
    tree.parent ns = .ok (here, entries) ↔
      tree.follow [] ns.dropLast = .ok here ∧ tree.get here = .ok (.directory entries) := by
  unfold parent
  cases hf : tree.follow [] ns.dropLast with
  | error e => exact iff_of_false (by simp [bind, Except.bind]) (by simp)
  | ok there =>
    simp only [bind, Except.bind, Except.ok.injEq]
    constructor
    · intro h
      split at h
      · rename_i es hes
        cases h
        exact ⟨rfl, hes⟩
      · cases h
    · rintro ⟨rfl, hes⟩
      rw [hes]
      rfl

/-- Opening a file to be written finds what is there, or puts an empty file where nothing was. -/
theorem openOrCreate_eq_ok {tree new : Node} {path : String} {ns : List String} :
    tree.openOrCreate path = .ok (new, ns) ↔
      pathFault? path = none ∧ ∃ name here entries, (names path).getLast? = some name ∧
        tree.parent (names path) = .ok (here, entries) ∧
        ¬(name = "." ∨ name = ".." ∨ endsInSlash path = true) ∧ ¬ name.utf8ByteSize > nameLimit ∧
        ns = here ++ [name] ∧
        ((∃ n, child? name entries = some n ∧ n.isDirectory = false ∧ new = tree) ∨
          (child? name entries = none ∧ put (.file []) tree (here ++ [name]) = .ok new)) := by
  unfold openOrCreate
  constructor
  · intro h
    split at h
    · cases h
    · cases h
    rename_i name hfault hlast
    cases hp : tree.parent (names path) with
    | error e => rw [hp] at h; cases h
    | ok found =>
      obtain ⟨here, entries⟩ := found
      rw [hp] at h
      simp only [bind, Except.bind] at h
      split at h
      · cases h
      rename_i hname
      split at h
      · cases h
      rename_i hlong
      refine ⟨hfault, name, here, entries, hlast, rfl, hname, hlong, ?_⟩
      split at h
      · rename_i n hn
        split at h
        · cases h
        · rename_i hdir
          cases h
          exact ⟨rfl, Or.inl ⟨n, hn, by simpa using hdir, rfl⟩⟩
      · rename_i hn
        cases hput : put (.file []) tree (here ++ [name]) with
        | error e => rw [hput] at h; cases h
        | ok made =>
          rw [hput] at h
          cases h
          exact ⟨rfl, Or.inr ⟨hn, rfl⟩⟩
  · rintro ⟨hfault, name, here, entries, hlast, hp, hname, hlong, rfl, hcase⟩
    simp only [hfault, hlast, hp, bind, Except.bind, if_neg hname, if_neg hlong]
    rcases hcase with ⟨n, hn, hdir, rfl⟩ | ⟨hn, hput⟩
    · simp only [hn, hdir]
      rfl
    · simp only [hn, hput]
      rfl

/-- A file that was opened to be written, and created if it was absent, is there the next time. -/
theorem openOrCreate_again {tree new : Node} {path : String} {ns : List String}
    (h : tree.openOrCreate path = .ok (new, ns)) : new.openOrCreate path = .ok (new, ns) := by
  rw [openOrCreate_eq_ok] at h ⊢
  obtain ⟨hfault, name, here, entries, hlast, hp, hname, hlong, rfl, hcase⟩ := h
  refine ⟨hfault, name, here, ?_⟩
  rcases hcase with ⟨n, hn, hdir, rfl⟩ | ⟨hn, hput⟩
  · exact ⟨entries, hlast, hp, hname, hlong, rfl, Or.inl ⟨n, hn, hdir, rfl⟩⟩
  · obtain ⟨hf, hg⟩ := parent_eq_ok.mp hp
    obtain ⟨hk, entries', hg', hn'⟩ := put_file hg hn hput
    exact ⟨entries', hlast, parent_eq_ok.mpr ⟨hk.follow hf, hg'⟩, hname, hlong, rfl,
      Or.inl ⟨_, hn', rfl, rfl⟩⟩

/-! ## Nothing else is written -/

/-- What is at some names and what is further on. -/
theorem get_append (tree : Node) (ns ms : List String) :
    tree.get (ns ++ ms) = tree.get ns >>= fun n => n.get ms := by
  induction ns generalizing tree with
  | nil => rfl
  | cons name ns ih =>
    cases tree with
    | directory entries =>
      simp only [List.cons_append, get]
      cases child? name entries with
      | none => rfl
      | some n => exact ih n
    | _ => rfl

/-- Nothing goes on from what is no directory. -/
theorem get_past {tree n x : Node} {ns ms : List String} (hn : tree.get ns = .ok n)
    (hd : n.isDirectory = false) (hx : tree.get (ns ++ ms) = .ok x) : ms = [] := by
  rw [get_append, hn] at hx
  cases ms with
  | nil => rfl
  | cons m ms =>
    cases n with
    | directory entries => cases hd
    | _ => cases hx

theorem get_put_self {n tree new : Node} {ns : List String} (h : put n tree ns = .ok new) :
    new.get ns = .ok n := by
  induction ns generalizing tree new with
  | nil => cases h; rfl
  | cons name ns ih =>
    obtain ⟨entries, made, rfl, rfl, hp, -⟩ := put_cons h
    rw [get_directory (by rw [child?_putEntry, if_pos rfl])]
    exact ih hp

/-- Away from the names where something was put, all is as it was. -/
theorem get_put_apart {n tree new : Node} {ns ms : List String} (h : put n tree ns = .ok new)
    (hle : ¬ ns <+: ms) (hge : ¬ ms <+: ns) : new.get ms = tree.get ms := by
  induction ns generalizing tree new ms with
  | nil => exact absurd List.nil_prefix hle
  | cons name ns ih =>
    cases ms with
    | nil => exact absurd List.nil_prefix hge
    | cons m ms =>
      obtain ⟨entries, made, rfl, rfl, hp, hnone⟩ := put_cons h
      simp only [get, child?_putEntry]
      by_cases hm : m = name
      · subst hm
        have hle' : ¬ ns <+: ms := fun hp => hle (List.cons_prefix_cons.mpr ⟨rfl, hp⟩)
        have hge' : ¬ ms <+: ns := fun hp => hge (List.cons_prefix_cons.mpr ⟨rfl, hp⟩)
        rw [if_pos rfl]
        cases hc : child? m entries with
        | none => exact absurd (hnone hc ▸ List.nil_prefix) hle'
        | some old =>
          rw [hc] at hp
          exact ih hp hle' hge'
      · rw [if_neg hm]

/-- Every file has what it had, and a file that is new is empty. -/
def Grows (tree new : Node) : Prop :=
  ∀ ns n, n.isDirectory = false →
    (tree.get ns = .ok n → new.get ns = .ok n) ∧
      (new.get ns = .ok n → tree.get ns = .ok n ∨ n = .file [])

theorem Grows.refl (tree : Node) : Grows tree tree := fun _ _ _ => ⟨id, Or.inl⟩

theorem Grows.trans {tree mid new : Node} (h : Grows tree mid) (h' : Grows mid new) : Grows tree new := by
  intro ns n hd
  refine ⟨fun hg => (h' ns n hd).1 ((h ns n hd).1 hg), fun hg => ?_⟩
  rcases (h' ns n hd).2 hg with hm | he
  · exact (h ns n hd).2 hm
  · exact Or.inr he

/-- An empty file put where nothing was. -/
theorem grows_put {tree new : Node} {here : List String} {name : String} {entries : List (String × Node)}
    (hg : tree.get here = .ok (.directory entries)) (hn : child? name entries = none)
    (h : put (.file []) tree (here ++ [name]) = .ok new) : Grows tree new := by
  have hself : new.get (here ++ [name]) = .ok (.file []) := get_put_self h
  have hold : tree.get (here ++ [name]) = .error .noEntry := by
    rw [get_append, hg]
    simp only [bind, Except.bind, get, hn]
  intro ms n hd
  by_cases hle : here ++ [name] <+: ms
  · obtain ⟨rest, rfl⟩ := hle
    constructor
    · intro hx
      rw [get_append, hold] at hx
      cases hx
    · intro hx
      obtain rfl := get_past hself rfl hx
      rw [List.append_nil, hself] at hx
      exact Or.inr (Except.ok.inj hx).symm
  by_cases hge : ms <+: here ++ [name]
  · -- above the new file there are directories only, before and after
    obtain ⟨rest, hrest⟩ := hge
    constructor
    · intro hx
      have hms : ms <+: here := by
        rcases List.prefix_concat_iff.mp (show ms <+: here ++ [name] from ⟨rest, hrest⟩) with rfl | hp
        · exact absurd List.prefix_rfl hle
        · exact hp
      obtain ⟨rest', rfl⟩ := hms
      obtain rfl := get_past hx hd hg
      rw [List.append_nil, hx] at hg
      obtain rfl := Except.ok.inj hg
      cases hd
    · intro hx
      rw [← hrest] at hself
      obtain rfl := get_past hx hd hself
      rw [List.append_nil] at hrest
      exact absurd (hrest ▸ List.prefix_rfl) hle
  · rw [get_put_apart h hle hge]
    exact ⟨id, Or.inl⟩

theorem openOrCreate_grows {tree new : Node} {path : String} {ns : List String}
    (h : tree.openOrCreate path = .ok (new, ns)) : Grows tree new := by
  obtain ⟨-, name, here, entries, -, hp, -, -, -, hcase⟩ := openOrCreate_eq_ok.mp h
  rcases hcase with ⟨-, -, -, rfl⟩ | ⟨hn, hput⟩
  · exact Grows.refl _
  · exact grows_put (parent_eq_ok.mp hp).2 hn hput

theorem hasNul_of_openOrCreate {tree new : Node} {path : String} {ns : List String}
    (h : tree.openOrCreate path = .ok (new, ns)) : hasNul path = false := by
  have hfault := (openOrCreate_eq_ok.mp h).1
  unfold pathFault? at hfault
  split at hfault
  · cases hfault
  split at hfault
  · cases hfault
  · rename_i hnul
    exact Bool.not_eq_true _ ▸ hnul

end Node

/-! ## Who has the lock -/

theorem lock_eq_ok {path : String} {s s' : Storage} :
    s.lock path = (.ok (), s') ↔ ∃ root ns, s.root.openOrCreate path = .ok (root, ns) ∧
      s' = { root := root, locked := (path, ns) :: s.locked } := by
  unfold lock
  constructor
  · intro h
    split at h
    · cases h
    cases ho : s.root.openOrCreate path with
    | error e => rw [ho] at h; cases h
    | ok found =>
      obtain ⟨root, ns⟩ := found
      rw [ho] at h
      cases h
      exact ⟨root, ns, rfl, rfl⟩
  · rintro ⟨root, ns, ho, rfl⟩
    have hnul := Node.hasNul_of_openOrCreate ho
    simp only [hnul, ho]
    rfl

theorem lock_error {path : String} {s : Storage} {e : Error} (h : (s.lock path).1 = .error e) :
    (s.lock path).2 = s := by
  unfold lock at h ⊢
  split
  · rfl
  · rename_i hnul
    rw [if_neg hnul] at h
    cases ho : s.root.openOrCreate path with
    | error e => rfl
    | ok found => rw [ho] at h; cases h

/-- Takes the lock on a file unless somebody has it: nobody waits. -/
def tryLock (path : String) (s : Storage) : Except Error Unit × Storage :=
  match s.root.openOrCreate path with
  | .ok (root, ns) =>
    if s.locked.any fun l => l.2 = ns then (.error (.system .wouldBlock), { s with root := root })
    else s.lock path
  | .error _ => s.lock path

/-- Nobody has the lock on the file that the path leads to. -/
def Free (path : String) (s : Storage) : Prop :=
  ∀ root ns, s.root.openOrCreate path = .ok (root, ns) → ∀ l ∈ s.locked, l.2 ≠ ns

/-- The lock was taken by this path, after all those in `before`, and not given back yet. -/
def Holds (path : String) (s before : Storage) : Prop :=
  ∃ ns, s.root.openOrCreate path = .ok (s.root, ns) ∧ s.locked = (path, ns) :: before.locked

/-- Whoever else wants the lock has to wait. -/
theorem Holds.blocks {path : String} {s before : Storage} (h : s.Holds path before) :
    (s.tryLock path).1 = .error (.system .wouldBlock) := by
  obtain ⟨ns, ho, hl⟩ := h
  simp [tryLock, ho, hl]

theorem Free.tryLock {path : String} {s : Storage} (h : s.Free path) : s.tryLock path = s.lock path := by
  unfold Storage.tryLock
  split
  · rename_i root ns ho
    rw [if_neg]
    simpa using fun p hl => h root ns ho (p, ns) hl rfl
  · rfl

theorem holds_of_lock {path : String} {s s' : Storage} (h : s.lock path = (.ok (), s')) :
    s'.Holds path s := by
  obtain ⟨root, ns, ho, rfl⟩ := lock_eq_ok.mp h
  exact ⟨ns, Node.openOrCreate_again ho, rfl⟩

/-- The storage after the lock's file was opened. -/
def opened (path : String) (s : Storage) : Storage :=
  match s.root.openOrCreate path with
  | .ok (root, _) => { s with root := root }
  | .error _ => s

theorem opened_locked (path : String) (s : Storage) : (s.opened path).locked = s.locked := by
  unfold opened
  split <;> rfl

theorem opened_grows (path : String) (s : Storage) : s.root.Grows (s.opened path).root := by
  unfold opened
  split
  · rename_i ho
    exact Node.openOrCreate_grows ho
  · exact Node.Grows.refl _

/-- The path leads to the same file, once it was opened. -/
theorem Free.opened {path : String} {s : Storage} (h : s.Free path) : (s.opened path).Free path := by
  intro root ns ho
  unfold Storage.opened at ho ⊢
  split
  · rename_i hs
    rw [hs] at ho
    rw [Node.openOrCreate_again hs] at ho
    cases ho
    exact h _ _ hs
  · rename_i hs
    rw [hs] at ho
    exact h _ _ ho

/-- The storage after a lock was taken and given back. -/
def touch (path : String) (s : Storage) : Storage := ((s.lock path).2).unlock path

/-- All that is left of a lock that was given back is the file. -/
theorem touch_eq_opened {path : String} {s : Storage} (h : (s.lock path).1 = .ok ()) :
    s.touch path = s.opened path := by
  obtain ⟨root, ns, ho, hs⟩ := lock_eq_ok.mp (Prod.ext h rfl)
  simp [touch, opened, ho, hs, unlock]

/-- A lock that was to be had is to be had again. -/
theorem lock_touch {path : String} {s : Storage} (h : (s.lock path).1 = .ok ()) :
    ((s.touch path).lock path).1 = .ok () := by
  obtain ⟨root, ns, ho, -⟩ := lock_eq_ok.mp (Prod.ext h rfl)
  rw [touch_eq_opened h]
  refine congrArg Prod.fst (lock_eq_ok.mpr ⟨root, ns, ?_, rfl⟩)
  simp only [opened, ho, Node.openOrCreate_again ho]

end Storage

end FirmwareMailbox
