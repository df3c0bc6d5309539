import WchIotSdk.SysDlist
import Mathlib.Data.List.TakeWhile

/-!
# Any number of lists in one memory

The lists share the memory of the nodes. As long as each node is put into a list only
while it is in none, every sequence of operations does to the memory what it does to a
store of plain lists.
-/
namespace WchIotSdk.Dlist
open PointerRing EventRuns

variable {α : Type*}

/-- What the lists contain, and the nodes that are initialised and in no list. -/
structure Store (α : Type*) where
  lists : α → Option (List α)
  idle : Set α

inductive Op (α : Type*) where
  | initList (list : α)
  | initNode (node : α)
  | append (list node : α)
  | prepend (list node : α)
  | insert (successor node : α)
  | insertAt (list node : α) (cond : α → Bool)
  | remove (node : α)
  | get (list : α)

namespace Store

def empty : Store α := ⟨fun _ => none, ∅⟩

/-- A list, or a node in one. -/
def Member (c : Store α) (a : α) : Prop := ∃ list l, c.lists list = some l ∧ a ∈ list :: l

/-- The node before the first that meets the condition, or at the end. -/
def insertFirst (cond : α → Bool) (node : α) (l : List α) : List α :=
  l.takeWhile (fun a => !cond a) ++ node :: l.dropWhile (fun a => !cond a)

variable [DecidableEq α]

def step (c : Store α) : Op α → Store α
  | .initList list => ⟨Function.update c.lists list (some []), c.idle \ {list}⟩
  | .initNode node => { c with idle := insert node c.idle }
  | .append list node =>
    ⟨Function.update c.lists list ((c.lists list).map (· ++ [node])), c.idle \ {node}⟩
  | .prepend list node =>
    ⟨Function.update c.lists list ((c.lists list).map (node :: ·)), c.idle \ {node}⟩
  | .insert successor node =>
    ⟨fun list => (c.lists list).map fun l =>
      if successor ∈ l then insertFirst (· = successor) node l else l, c.idle \ {node}⟩
  | .insertAt list node cond =>
    ⟨Function.update c.lists list ((c.lists list).map (insertFirst cond node)), c.idle \ {node}⟩
  | .remove node =>
    ⟨fun list => (c.lists list).map (·.erase node), insert node c.idle⟩
  | .get list =>
    match c.lists list with
    | some (node :: l) => ⟨Function.update c.lists list (some l), insert node c.idle⟩
    | _ => c

/-- The node a `get` returns; other operations return none. -/
def taken (c : Store α) : Op α → List (Option α)
  | .get list => [(c.lists list).bind List.head?]
  | _ => []

/-- The callers' part: lists are initialised, and nodes are put into a list only while
they are in none. -/
def Allowed (c : Store α) : Op α → Prop
  | .initList list => ¬ c.Member list
  | .initNode node => ¬ c.Member node
  | .append list node | .prepend list node | .insertAt list node _ =>
    (∃ l, c.lists list = some l) ∧ ¬ c.Member node
  | .insert successor node =>
    (∃ list l, c.lists list = some l ∧ successor ∈ l) ∧ ¬ c.Member node
  | .remove node => ∃ list l, c.lists list = some l ∧ node ∈ l
  | .get list => ∃ l, c.lists list = some l

end Store

section Memory

variable [DecidableEq α]

/-- An operation on the memory, with what a `get` returns. -/
def exec (steps : ℕ) (m : Memory α) : Op α → Option (Memory α × List (Option α))
  | .initList list => some (sysDlistInit m list, [])
  | .initNode node => some (sysDnodeInit m node, [])
  | .append list node => (sysDlistAppend m list node).map fun m => (m, [])
  | .prepend list node => (sysDlistPrepend m list node).map fun m => (m, [])
  | .insert successor node => (sysDlistInsert m successor node).map fun m => (m, [])
  | .insertAt list node cond => (sysDlistInsertAt m steps list node cond).map fun m => (m, [])
  | .remove node => (sysDlistRemove m node).map fun m => (m, [])
  | .get list => (sysDlistGet m list).map fun r => (r.1, [r.2])

def execAll (steps : ℕ) (m : Memory α) : List (Op α) → Option (Memory α × List (Option α))
  | [] => some (m, [])
  | op :: ops => do
    let (m, out) ← exec steps m op
    let (m, outs) ← execAll steps m ops
    some (m, out ++ outs)

/-- The memory holds the lists of the store. -/
structure Stores (m : Memory α) (c : Store α) : Prop where
  holds : ∀ {list l}, c.lists list = some l → Holds m list l
  apart : ∀ {list l list' l'}, c.lists list = some l → c.lists list' = some l' → list ≠ list' →
    List.Disjoint (list :: l) (list' :: l')
  idle : ∀ {a}, a ∈ c.idle → sysDnodeIsLinked m a = false

end Memory

section Steps

variable [DecidableEq α] {m m' : Memory α} {c : Store α} {list node : α} {l l' : List α}

omit [DecidableEq α] in
lemma Stores.linked (h : Stores m c) {a : α} (ha : c.Member a) :
    sysDnodeIsLinked m a = true := by
  obtain ⟨list, l, hl, hmem⟩ := ha
  exact (h.holds hl).isLinked hmem

/-- Pointers of nodes of other lists stay as they are. -/
def SameOutside (m m' : Memory α) (c : Store α) (list : α) (l : List α) : Prop :=
  ∀ a, c.Member a → a ∉ list :: l → m'.next a = m.next a ∧ m'.prev a = m.prev a

/-- One list is changed. -/
theorem Stores.write (h : Stores m c) (hl : c.lists list = some l ∨ ¬ c.Member list ∧ l = [])
    (hnew : Holds m' list l') (hsub : ∀ a ∈ l', a ∈ l ∨ ¬ c.Member a)
    (hsame : SameOutside m m' c list l) {idle : Set α}
    (hidle : ∀ a ∈ idle, sysDnodeIsLinked m' a = false) :
    Stores m' ⟨Function.update c.lists list (some l'), idle⟩ := by
  have hother {k : α} {lk : List α} (hk : c.lists k = some lk) (hne : k ≠ list) :
      ∀ a ∈ k :: lk, a ∉ list :: l := by
    intro a ha hmem
    rcases hl with hl | ⟨hout, rfl⟩
    · exact h.apart hk hl hne ha hmem
    · rw [List.mem_singleton] at hmem
      exact hout (hmem ▸ ⟨k, lk, hk, ha⟩)
  have hfresh {k : α} {lk : List α} (hk : c.lists k = some lk) (hne : k ≠ list) :
      List.Disjoint (k :: lk) (list :: l') := by
    intro a ha hmem
    rcases List.mem_cons.mp hmem with rfl | hmem
    · exact hother hk hne a ha List.mem_cons_self
    · rcases hsub a hmem with hmem | hout
      · exact hother hk hne a ha (List.mem_cons_of_mem list hmem)
      · exact hout ⟨k, lk, hk, ha⟩
  constructor
  · intro k lk hk
    change Function.update c.lists list (some l') k = some lk at hk
    by_cases hne : k = list
    · subst hne
      rw [Function.update_self] at hk
      exact Option.some_inj.mp hk ▸ hnew
    · rw [Function.update_of_ne hne] at hk
      have hkeep {a : α} (ha : a ∈ k :: lk) := hsame a ⟨k, lk, hk, ha⟩ (hother hk hne a ha)
      exact Loop.congr (h.holds hk) (fun a ha => (hkeep ha).1) fun a ha => (hkeep ha).2
  · intro k lk k' lk' hk hk' hne
    change Function.update c.lists list (some l') k = some lk at hk
    change Function.update c.lists list (some l') k' = some lk' at hk'
    by_cases h1 : k = list
    · subst h1
      rw [Function.update_self] at hk
      rw [Function.update_of_ne hne.symm] at hk'
      obtain rfl := Option.some_inj.mp hk
      exact (hfresh hk' hne.symm).symm
    · rw [Function.update_of_ne h1] at hk
      by_cases h2 : k' = list
      · subst h2
        rw [Function.update_self] at hk'
        obtain rfl := Option.some_inj.mp hk'
        exact hfresh hk h1
      · rw [Function.update_of_ne h2] at hk'
        exact h.apart hk hk' hne
  · exact fun ha => hidle _ ha

lemma sameOutside_link {p s : α} (hp : p ∈ list :: l) (hs : s ∈ list :: l)
    (hnode : ¬ c.Member node) : SameOutside m (linkBetween m p s node) c list l := by
  intro a ha hout
  have hap : a ≠ p := fun h => hout (h ▸ hp)
  have has : a ≠ s := fun h => hout (h ▸ hs)
  have han : a ≠ node := fun h => hnode (h ▸ ha)
  exact ⟨by simp [linkBetween, hap, han], by simp [linkBetween, has, han]⟩

lemma sameOutside_unlink {p s : α} (hp : p ∈ list :: l) (hs : s ∈ list :: l)
    (hnode : node ∈ list :: l) : SameOutside m (unlinkBetween m p s node) c list l := by
  intro a _ hout
  have hap : a ≠ p := fun h => hout (h ▸ hp)
  have has : a ≠ s := fun h => hout (h ▸ hs)
  have han : a ≠ node := fun h => hout (h ▸ hnode)
  exact ⟨by simp [unlinkBetween, hap, han], by simp [unlinkBetween, has, han]⟩

/-- A node is taken into a list. -/
theorem Stores.link (h : Stores m c) (hl : c.lists list = some l) {p s : α}
    (hp : p ∈ list :: l) (hs : s ∈ list :: l) (hnode : ¬ c.Member node)
    (hnew : Holds (linkBetween m p s node) list l') (hsub : ∀ a ∈ l', a ∈ l ∨ a = node) :
    Stores (linkBetween m p s node)
      ⟨Function.update c.lists list (some l'), c.idle \ {node}⟩ := by
  refine h.write (Or.inl hl) hnew ?_ (sameOutside_link hp hs hnode) ?_
  · exact fun a ha => (hsub a ha).imp_right fun (heq : a = node) => heq ▸ hnode
  · rintro a ⟨ha, hane⟩
    have hap : a ≠ p := by
      rintro rfl
      exact absurd (h.linked ⟨list, l, hl, hp⟩) (by simp [h.idle ha])
    have hkeep : (linkBetween m p s node).next a = m.next a := by
      simp [linkBetween, hap, show a ≠ node from hane]
    rw [sysDnodeIsLinked, hkeep]
    exact h.idle ha

/-- A node is taken out of its list. -/
theorem Stores.unlink (h : Stores m c) (hl : c.lists list = some l) {p s : α}
    (hp : p ∈ list :: l) (hs : s ∈ list :: l) (hnode : node ∈ l)
    (hnew : Holds (unlinkBetween m p s node) list l') (hsub : ∀ a ∈ l', a ∈ l) :
    Stores (unlinkBetween m p s node)
      ⟨Function.update c.lists list (some l'), insert node c.idle⟩ := by
  refine h.write (Or.inl hl) hnew (fun a ha => Or.inl (hsub a ha))
    (sameOutside_unlink hp hs (List.mem_cons_of_mem list hnode)) ?_
  rintro a (rfl | ha)
  · simp [sysDnodeIsLinked, unlinkBetween]
  · have hne {b : α} (hb : b ∈ list :: l) : a ≠ b := by
      rintro rfl
      exact absurd (h.linked ⟨list, l, hl, hb⟩) (by simp [h.idle ha])
    have hkeep : (unlinkBetween m p s node).next a = m.next a := by
      simp [unlinkBetween, hne hp, hne (List.mem_cons_of_mem list hnode)]
    rw [sysDnodeIsLinked, hkeep]
    exact h.idle ha

lemma insertFirst_insert {s : α} {pre post : List α} (hpre : s ∉ pre) :
    Store.insertFirst (· = s) node (pre ++ s :: post) = pre ++ node :: s :: post := by
  have hpass (a : α) (ha : a ∈ pre) : (!decide (a = s)) = true := by
    simpa using fun heq : a = s => hpre (heq ▸ ha)
  rw [Store.insertFirst, List.takeWhile_append_of_pos hpass, List.dropWhile_append_of_pos hpass]
  simp

/-- Lists that do not contain the node are left alone. -/
lemma Stores.only (h : Stores m c) (hl : c.lists list = some l) (hnode : node ∈ l)
    {f : List α → List α} (hf : ∀ lk, node ∉ lk → f lk = lk) :
    (fun k => (c.lists k).map f) = Function.update c.lists list (some (f l)) := by
  funext k
  by_cases hne : k = list
  · subst hne
    rw [Function.update_self, hl, Option.map_some]
  · rw [Function.update_of_ne hne]
    cases hk : c.lists k with
    | none => rfl
    | some lk =>
      have hout : node ∉ lk := fun hmem =>
        h.apart hk hl hne (List.mem_cons_of_mem k hmem) (List.mem_cons_of_mem list hnode)
      rw [Option.map_some, hf lk hout]

/-- A node taken out by `sys_dlist_remove`. -/
lemma Stores.remove (h : Stores m c) (hl : c.lists list = some l) (hnode : node ∈ l) :
    ∃ m', sysDlistRemove m node = some m' ∧
      Stores m' ⟨Function.update c.lists list (some (l.erase node)), insert node c.idle⟩ := by
  obtain ⟨pre, post, hpre, rfl, herase⟩ := List.exists_erase_eq hnode
  obtain ⟨p, hp, s, hs, hremove, hnew⟩ := remove_holds (h.holds hl)
  refine ⟨_, hremove, h.unlink hl ?_ ?_ hnode (by rwa [herase]) fun a ha => ?_⟩
  · rcases List.mem_cons.mp hp with rfl | hp
    · exact List.mem_cons_self
    · exact List.mem_cons_of_mem list (List.mem_append_left _ hp)
  · rcases List.mem_append.mp hs with hs | hs
    · exact List.mem_cons_of_mem list (List.mem_append_right pre (List.mem_cons_of_mem node hs))
    · rw [List.mem_singleton.mp hs]
      exact List.mem_cons_self
  · exact List.mem_of_mem_erase ha

/-- A node taken in by `sys_dlist_append`. -/
lemma Stores.append (h : Stores m c) (hl : c.lists list = some l) (hnode : ¬ c.Member node) :
    ∃ m', sysDlistAppend m list node = some m' ∧
      Stores m' ⟨Function.update c.lists list (some (l ++ [node])), c.idle \ {node}⟩ := by
  obtain ⟨p, hp, happend, hnew⟩ :=
    append_holds (h.holds hl) fun hmem => hnode ⟨list, l, hl, hmem⟩
  exact ⟨_, happend, h.link hl hp List.mem_cons_self hnode hnew fun a ha => by simpa using ha⟩

lemma Stores.insert (h : Stores m c) {pre post : List α} {s : α}
    (hl : c.lists list = some (pre ++ s :: post)) (hnode : ¬ c.Member node) :
    ∃ m', sysDlistInsert m s node = some m' ∧
      Stores m' ⟨Function.update c.lists list (some (pre ++ node :: s :: post)),
        c.idle \ {node}⟩ := by
  obtain ⟨p, hp, hinsert, hnew⟩ :=
    insert_holds (h.holds hl) fun hmem => hnode ⟨list, _, hl, hmem⟩
  refine ⟨_, hinsert, h.link hl ?_ (by simp) hnode hnew fun a ha => ?_⟩
  · rcases List.mem_cons.mp hp with rfl | hp
    · exact List.mem_cons_self
    · exact List.mem_cons_of_mem list (List.mem_append_left _ hp)
  · rcases List.mem_append.mp ha with ha | ha
    · exact Or.inl (List.mem_append_left _ ha)
    · rcases List.mem_cons.mp ha with rfl | ha
      · exact Or.inr rfl
      · exact Or.inl (List.mem_append_right pre ha)

/-- `sys_dlist_insert_at` goes before the first node that meets the condition. -/
lemma Stores.insertAt (h : Stores m c) (hl : c.lists list = some l) (hnode : ¬ c.Member node)
    (cond : α → Bool) {steps : ℕ} (hsteps : l.length < steps) :
    ∃ m', sysDlistInsertAt m steps list node cond = some m' ∧
      Stores m' ⟨Function.update c.lists list (some (Store.insertFirst cond node l)),
        c.idle \ {node}⟩ := by
  have hholds := h.holds hl
  rw [sysDlistInsertAt, hholds.isEmpty]
  cases l with
  | nil => exact h.append hl hnode
  | cons a l =>
    have hloop : insertAtLoop m list cond steps (sysDlistPeekHead m list) =
        some ((a :: l).find? cond) := by
      have hfirst : Holds m list ([] ++ a :: l) := hholds
      rw [hholds.peekHead]
      exact insertAtLoop_eq cond hfirst hsteps
    rw [if_neg (by simp), hloop]
    cases hfind : (a :: l).find? cond with
    | none =>
      have hnone (b : α) (hb : b ∈ a :: l) : (!cond b) = true := by
        simpa using List.find?_eq_none.mp hfind b hb
      have hend : Store.insertFirst cond node (a :: l) = (a :: l) ++ [node] := by
        rw [Store.insertFirst, List.takeWhile_eq_self_iff.mpr hnone,
          List.dropWhile_eq_nil_iff.mpr hnone]
      rw [hend]
      exact h.append hl hnode
    | some s =>
      obtain ⟨hs, pre, post, hsplit, hpre⟩ := List.find?_eq_some_iff_append.mp hfind
      have hpass (b : α) (hb : b ∈ pre) : (!cond b) = true := hpre b hb
      have hbefore : Store.insertFirst cond node (a :: l) = pre ++ node :: s :: post := by
        rw [hsplit, Store.insertFirst, List.takeWhile_append_of_pos hpass,
          List.dropWhile_append_of_pos hpass]
        simp [hs]
      rw [hbefore]
      exact h.insert (hsplit ▸ hl) hnode

/-- One operation. -/
theorem stores_step (h : Stores m c) {op : Op α} (hop : c.Allowed op) {steps : ℕ}
    (hsteps : ∀ {list l}, c.lists list = some l → l.length < steps) :
    ∃ m', exec steps m op = some (m', c.taken op) ∧ Stores m' (c.step op) := by
  cases op with
  | initList list =>
    refine ⟨_, rfl, h.write (Or.inr ⟨hop, rfl⟩) ?_ (by simp) ?_ ?_⟩
    · refine loop_of_closed (List.nodup_singleton list) ?_
      rw [List.getLast_singleton, List.isChain_pair]
      exact ⟨Function.update_self .., Function.update_self ..⟩
    · intro a _ ha
      have hne : a ≠ list := by simpa using ha
      exact ⟨Function.update_of_ne hne .., Function.update_of_ne hne ..⟩
    · rintro a ⟨ha, hne⟩
      have hkeep : (sysDlistInit m list).next a = m.next a := Function.update_of_ne hne ..
      rw [sysDnodeIsLinked, hkeep]
      exact h.idle ha
  | initNode node =>
    have hkeep {a : α} (ha : a ≠ node) : (sysDnodeInit m node).next a = m.next a ∧
        (sysDnodeInit m node).prev a = m.prev a :=
      ⟨Function.update_of_ne ha .., Function.update_of_ne ha ..⟩
    refine ⟨_, rfl, ?_, h.apart, ?_⟩
    · intro list l hl
      have hout {a : α} (ha : a ∈ list :: l) : a ≠ node := fun heq => hop (heq ▸ ⟨list, l, hl, ha⟩)
      exact Loop.congr (h.holds hl) (fun a ha => (hkeep (hout ha)).1)
        fun a ha => (hkeep (hout ha)).2
    · rintro a ha
      by_cases hne : a = node
      · subst hne
        simp [sysDnodeIsLinked, sysDnodeInit, setNext, setPrev]
      · rw [sysDnodeIsLinked, (hkeep hne).1]
        exact h.idle (ha.resolve_left hne)
  | append list node =>
    obtain ⟨⟨l, hl⟩, hnode⟩ := hop
    obtain ⟨m', happend, hnew⟩ := h.append hl hnode
    exact ⟨m', by rw [exec, happend]; rfl, by rwa [Store.step, hl]⟩
  | prepend list node =>
    obtain ⟨⟨l, hl⟩, hnode⟩ := hop
    obtain ⟨s, hs, hprepend, hnew⟩ :=
      prepend_holds (h.holds hl) fun hmem => hnode ⟨list, l, hl, hmem⟩
    refine ⟨_, by rw [exec, hprepend]; rfl, ?_⟩
    rw [Store.step, hl]
    exact h.link hl List.mem_cons_self hs hnode hnew fun a ha => (List.mem_cons.mp ha).symm
  | insert s node =>
    obtain ⟨⟨list, l, hl, hs⟩, hnode⟩ := hop
    have honly := h.only hl hs (f := fun l => if s ∈ l then Store.insertFirst (· = s) node l else l)
      fun lk hlk => if_neg hlk
    obtain ⟨pre, post, rfl, hpre⟩ := List.eq_append_cons_of_mem hs
    obtain ⟨m', hinsert, hnew⟩ := h.insert hl hnode
    refine ⟨m', by rw [exec, hinsert]; rfl, ?_⟩
    rw [Store.step, honly, if_pos hs, insertFirst_insert hpre]
    exact hnew
  | insertAt list node cond =>
    obtain ⟨⟨l, hl⟩, hnode⟩ := hop
    obtain ⟨m', hinsert, hnew⟩ := h.insertAt hl hnode cond (hsteps hl)
    exact ⟨m', by rw [exec, hinsert]; rfl, by rwa [Store.step, hl]⟩
  | remove node =>
    obtain ⟨list, l, hl, hnode⟩ := hop
    obtain ⟨m', hremove, hnew⟩ := h.remove hl hnode
    refine ⟨m', by rw [exec, hremove]; rfl, ?_⟩
    rw [Store.step, h.only hl hnode fun lk hlk => List.erase_of_not_mem hlk]
    exact hnew
  | get list =>
    obtain ⟨l, hl⟩ := hop
    have hholds := h.holds hl
    rw [exec, sysDlistGet, hholds.isEmpty, Store.step, Store.taken, hl]
    cases l with
    | nil => exact ⟨m, rfl, h⟩
    | cons node l =>
      obtain ⟨m', hremove, hnew⟩ := h.remove hl List.mem_cons_self
      rw [if_neg (by simp), hholds.head_eq]
      rw [List.erase_cons_head] at hnew
      exact ⟨m', by simp [hremove], hnew⟩

omit [DecidableEq α] in
lemma length_insertFirst (cond : α → Bool) (node : α) (l : List α) :
    (Store.insertFirst cond node l).length = l.length + 1 := by
  have hsplit : ((l.takeWhile fun a => !cond a) ++ l.dropWhile fun a => !cond a).length =
      l.length := congrArg List.length List.takeWhile_append_dropWhile
  rw [List.length_append] at hsplit
  rw [Store.insertFirst, List.length_append, List.length_cons]
  omega

/-- The store has no list longer than `n`. -/
def Store.Bounded (c : Store α) (n : ℕ) : Prop := ∀ ⦃list l⦄, c.lists list = some l → l.length ≤ n

omit [DecidableEq α] in
lemma length_of_map {o : Option (List α)} {f : List α → List α} {n : ℕ}
    (hf : ∀ l, (f l).length ≤ l.length + 1) (ho : ∀ l, o = some l → l.length ≤ n)
    (h : o.map f = some l) : l.length ≤ n + 1 := by
  obtain ⟨l', hl', rfl⟩ := Option.map_eq_some_iff.mp h
  exact (hf l').trans (Nat.succ_le_succ (ho l' hl'))

lemma Store.Bounded.update {n : ℕ} (hn : c.Bounded n) {o : Option (List α)} {list : α}
    (ho : ∀ l, o = some l → l.length ≤ n + 1) {idle : Set α} :
    Store.Bounded ⟨Function.update c.lists list o, idle⟩ (n + 1) := by
  intro k l hl
  change Function.update c.lists list o k = some l at hl
  by_cases hne : k = list
  · subst hne
    rw [Function.update_self] at hl
    exact ho l hl
  · rw [Function.update_of_ne hne] at hl
    exact Nat.le_succ_of_le (hn hl)

/-- No operation makes a list longer by more than one node. -/
lemma Store.Bounded.step {n : ℕ} (hn : c.Bounded n) (op : Op α) : (c.step op).Bounded (n + 1) := by
  cases op with
  | initList list =>
    refine hn.update fun l hl => ?_
    obtain rfl := Option.some_inj.mp hl
    exact Nat.zero_le _
  | initNode node => exact fun list l hl => Nat.le_succ_of_le (hn hl)
  | append list node =>
    exact hn.update fun l hl => length_of_map (fun l => by simp) (fun l hl => hn hl) hl
  | prepend list node =>
    exact hn.update fun l hl => length_of_map (fun l => by simp) (fun l hl => hn hl) hl
  | insertAt list node cond =>
    exact hn.update fun l hl =>
      length_of_map (fun l => (length_insertFirst cond node l).le) (fun l hl => hn hl) hl
  | insert s node =>
    intro list l hl
    refine length_of_map (fun l => ?_) (fun l hl => hn hl) hl
    split_ifs
    · exact (length_insertFirst _ node l).le
    · exact Nat.le_succ _
  | remove node =>
    intro list l hl
    exact length_of_map (fun l => List.length_erase_le.trans (Nat.le_succ _)) (fun l hl => hn hl) hl
  | get list =>
    rw [Store.step]
    split
    · rename_i node l hl
      refine hn.update fun l' hl' => ?_
      obtain rfl := Option.some_inj.mp hl'
      have hlen := hn hl
      rw [List.length_cons] at hlen
      omega
    · exact fun list l hl => Nat.le_succ_of_le (hn hl)

/-- A sequence of operations. -/
theorem stores_run (h : Stores m c) {ops : List (Op α)}
    (hops : Along Store.step Store.Allowed c ops) {n steps : ℕ} (hn : c.Bounded n)
    (hsteps : n + ops.length < steps) :
    ∃ m', execAll steps m ops = some (m', outputs Store.step Store.taken c ops) ∧
      Stores m' (run Store.step c ops) ∧ (run Store.step c ops).Bounded (n + ops.length) := by
  induction ops generalizing m c n with
  | nil => exact ⟨m, rfl, h, hn⟩
  | cons op ops ih =>
    rw [List.length_cons] at hsteps
    have hfits {list : α} {l : List α} (hl : c.lists list = some l) : l.length < steps := by
      have hlen := hn hl
      omega
    obtain ⟨m₁, hexec, h₁⟩ := stores_step h hops.1 hfits
    obtain ⟨m₂, hexecs, h₂, hn₂⟩ := ih h₁ hops.2 (hn.step op) (by omega)
    refine ⟨m₂, ?_, h₂, ?_⟩
    · rw [execAll, hexec]
      simp [hexecs]
    · rwa [List.length_cons, ← Nat.add_assoc, Nat.add_right_comm]

omit [DecidableEq α] in
/-- A memory without lists. -/
lemma stores_empty (m : Memory α) : Stores m Store.empty :=
  ⟨fun h => by simp [Store.empty] at h, fun h => by simp [Store.empty] at h,
    fun h => absurd h (Set.notMem_empty _)⟩

end Steps

/-- Every allowed sequence of operations on a memory without lists succeeds: no null
pointer is followed, every loop ends, each `get` returns what the store says, a walk of a
list visits its nodes in order, and of the lists and the initialised nodes exactly those
that are a list or in one are linked. -/
theorem dlist_run [DecidableEq α] (m : Memory α) (ops : List (Op α))
    (hops : Along Store.step Store.Allowed .empty ops) {steps : ℕ} (hsteps : ops.length < steps) :
    ∃ m', execAll steps m ops = some (m', outputs Store.step Store.taken .empty ops) ∧
      (∀ list l, (run Store.step .empty ops).lists list = some l →
        forEachNode m' list steps (sysDlistPeekHead m' list) = some l) ∧
      ∀ a, (run Store.step .empty ops).Member a ∨ a ∈ (run Store.step .empty ops).idle →
        (sysDnodeIsLinked m' a = true ↔ (run Store.step .empty ops).Member a) := by
  have hbounded : (Store.empty : Store α).Bounded 0 := fun list l hl => by simp [Store.empty] at hl
  have hroom : 0 + ops.length < steps := by omega
  obtain ⟨m', hexec, h, hn⟩ := stores_run (stores_empty m) hops hbounded hroom
  refine ⟨m', hexec, fun list l hl => ?_, fun a ha => ⟨fun hlinked => ?_, h.linked⟩⟩
  · rw [(h.holds hl).peekHead]
    have hlen := hn hl
    have hfits : l.length < steps := by omega
    have hfirst : Holds m' list ([] ++ l) := h.holds hl
    exact forEachNode_eq hfirst hfits
  · refine ha.resolve_right fun hidle => ?_
    rw [h.idle hidle] at hlinked
    cases hlinked

/-- What went in first comes out first. -/
theorem queue_of_two : ∃ m', execAll 5 (⟨fun _ => none, fun _ => none⟩ : Memory ℕ)
    [.initList 0, .append 0 5, .append 0 6, .get 0] = some (m', [some 5]) ∧
    forEachNode m' 0 5 (sysDlistPeekHead m' 0) = some [6] := by
  have hops : Along Store.step Store.Allowed .empty
      ([.initList 0, .append 0 5, .append 0 6, .get 0] : List (Op ℕ)) := by
    refine ⟨?_, ⟨⟨[], rfl⟩, ?_⟩, ⟨⟨[5], rfl⟩, ?_⟩, ⟨⟨[5, 6], rfl⟩, trivial⟩⟩
    · rintro ⟨list, l, hl, -⟩
      cases hl
    all_goals
      rintro ⟨list, l, hl, hmem⟩
      simp only [Store.step, Store.empty, Function.update_apply] at hl
      by_cases hlist : list = 0
      · subst hlist
        simp at hl
        subst hl
        simp at hmem
      · simp [hlist] at hl
  obtain ⟨m', hexec, hwalk, -⟩ := dlist_run _ _ hops (show _ < 5 by decide)
  exact ⟨m', hexec, hwalk 0 [6] rfl⟩

end WchIotSdk.Dlist
