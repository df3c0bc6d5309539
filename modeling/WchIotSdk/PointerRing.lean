import Mathlib.Data.List.Cycle
import Mathlib.Logic.Function.Basic

/-!
# Rings of next and previous pointers

A memory gives each node a pointer to the next node and one to the previous. In a ring
each node and the one that follows it point to each other, and the last is followed by
the first; where a ring starts does not matter. Two writes take a node in between two
neighbours, two writes take it out again.
-/
namespace WchIotSdk.PointerRing

variable {α : Type*}

/-- The two nodes point to each other. -/
def Linked (next prev : α → Option α) (a b : α) : Prop := next a = some b ∧ prev b = some a

/-- The nodes of the cycle, each linked to the one that follows it. -/
structure Loop (next prev : α → Option α) (c : Cycle α) : Prop where
  nodup : c.Nodup
  linked : c.Chain (Linked next prev)

section Reading

variable {next prev : α → Option α} {l : List α} {a s : α}

lemma Linked.unique_right {b : α} (h : Linked next prev a s) (h' : Linked next prev a b) :
    s = b := Option.some_inj.mp (h.1.symm.trans h'.1)

/-- The start of a ring can be moved past any of its nodes. -/
lemma Loop.rotate {l' : List α} (h : Loop next prev ↑(l ++ l')) : Loop next prev ↑(l' ++ l) := by
  rwa [Cycle.coe_eq_coe.mpr (List.isRotated_append : (l ++ l').IsRotated (l' ++ l))] at h

lemma Loop.closed (h : Loop next prev ↑(s :: l)) :
    List.IsChain (Linked next prev) ((s :: l).getLast (List.cons_ne_nil s l) :: s :: l) :=
  (Cycle.chain_ne_nil _ (List.cons_ne_nil s l)).mp h.linked

lemma loop_of_closed (hnodup : (s :: l).Nodup)
    (h : List.IsChain (Linked next prev) ((s :: l).getLast (List.cons_ne_nil s l) :: s :: l)) :
    Loop next prev ↑(s :: l) :=
  ⟨Cycle.nodup_coe_iff.mpr hnodup, (Cycle.chain_ne_nil _ (List.cons_ne_nil s l)).mpr h⟩

lemma Loop.nodup_list {l : List α} (h : Loop next prev ↑l) : l.Nodup :=
  Cycle.nodup_coe_iff.mp h.nodup

/-- The node before the first is the last. -/
lemma Loop.prev_eq (h : Loop next prev ↑(s :: l)) :
    prev s = some ((s :: l).getLast (List.cons_ne_nil s l)) :=
  (List.isChain_cons_cons.mp h.closed).1.2

lemma Loop.next_eq (h : Loop next prev ↑(s :: l)) : next s = some ((l ++ [s]).head (by simp)) := by
  have hchain : List.IsChain (Linked next prev) (s :: (l ++ [s])) := h.linked
  cases l with
  | nil => exact (List.isChain_cons_cons.mp hchain).1.1
  | cons b l => exact (List.isChain_cons_cons.mp hchain).1.1

/-- Only the pointers of its own nodes matter to a ring. -/
lemma Loop.congr {next' prev' : α → Option α} (h : Loop next prev ↑(s :: l))
    (hnext : ∀ a ∈ s :: l, next' a = next a) (hprev : ∀ a ∈ s :: l, prev' a = prev a) :
    Loop next' prev' ↑(s :: l) := by
  refine loop_of_closed h.nodup_list (h.closed.imp_of_mem_imp fun a b ha hb hab => ?_)
  have hlast := List.getLast_mem (List.cons_ne_nil s l)
  have hmem {x : α} (hx : x ∈ (s :: l).getLast (List.cons_ne_nil s l) :: s :: l) : x ∈ s :: l := by
    rcases List.mem_cons.mp hx with rfl | hx
    · exact hlast
    · exact hx
  exact ⟨(hnext a (hmem ha)).trans hab.1, (hprev b (hmem hb)).trans hab.2⟩

/-- What the two writes leave linked, away from the two neighbours. -/
lemma linked_rest {next' prev' : α → Option α} (p : α)
    (hchain : List.IsChain (Linked next prev) (s :: l))
    (hnext : ∀ a ∈ s :: l, a ≠ p → next' a = next a) (hprev : ∀ a ∈ l, prev' a = prev a)
    (hp : ∀ b ∈ l, ¬ Linked next prev p b) : List.IsChain (Linked next' prev') (s :: l) := by
  refine hchain.imp_of_mem_tail_imp fun a b ha hb hab => ⟨?_, (hprev b hb).trans hab.2⟩
  rw [hnext a ha fun hap => hp b hb (hap ▸ hab)]
  exact hab.1

end Reading

section Writing

variable [DecidableEq α] {next prev : α → Option α} {l : List α} {node p s : α}

/-- A node taken in before the first node of a ring is the last of the new ring. -/
theorem Loop.insert (h : Loop next prev ↑(s :: l)) (hp : prev s = some p)
    (hnode : node ∉ s :: l) :
    Loop (Function.update (Function.update next node (some s)) p (some node))
      (Function.update (Function.update prev node (some p)) s (some node))
      ↑(s :: (l ++ [node])) := by
  have hnodup := h.nodup_list
  obtain rfl : (s :: l).getLast (List.cons_ne_nil s l) = p :=
    Option.some_inj.mp (h.prev_eq.symm.trans hp)
  obtain ⟨hlink, hchain⟩ := List.isChain_cons_cons.mp h.closed
  set p := (s :: l).getLast (List.cons_ne_nil s l) with hpdef
  have hpmem : p ∈ s :: l := List.getLast_mem _
  have hne {a : α} (ha : a ∈ s :: l) : a ≠ node := fun h => hnode (h ▸ ha)
  refine loop_of_closed ?_ ?_
  · rw [← List.cons_append, ← List.concat_eq_append]
    exact hnodup.concat hnode
  · have hlast : (s :: (l ++ [node])).getLast (List.cons_ne_nil _ _) = node := by simp
    rw [hlast, List.isChain_cons_cons, ← List.cons_append]
    refine ⟨⟨?_, Function.update_self ..⟩, List.IsChain.append ?_ (List.isChain_singleton _) ?_⟩
    · rw [Function.update_of_ne (hne hpmem).symm, Function.update_self]
    · refine linked_rest p hchain (fun a ha hap => ?_) (fun a ha => ?_) fun b hb hlinked => ?_
      · rw [Function.update_of_ne hap, Function.update_of_ne (hne ha)]
      · have has : a ≠ s := fun h => (List.nodup_cons.mp hnodup).1 (h ▸ ha)
        rw [Function.update_of_ne has, Function.update_of_ne (hne (List.mem_cons_of_mem s ha))]
      · rw [← hlink.unique_right hlinked] at hb
        exact (List.nodup_cons.mp hnodup).1 hb
    · intro a ha b hb
      rw [List.getLast?_eq_some_getLast (List.cons_ne_nil s l), Option.mem_some] at ha
      rw [List.head?_cons, Option.mem_some] at hb
      subst hb
      rw [← ha, ← hpdef]
      refine ⟨Function.update_self .., ?_⟩
      rw [Function.update_of_ne (hne List.mem_cons_self).symm, Function.update_self]

/-- The node taken out is left without neighbours, its neighbours are linked. -/
theorem Loop.remove (h : Loop next prev ↑(node :: s :: l)) (hp : prev node = some p) :
    Loop (Function.update (Function.update next p (some s)) node none)
      (Function.update (Function.update prev s (some p)) node none) ↑(s :: l) := by
  have hnodup := h.nodup_list
  obtain ⟨hnode, hrest⟩ := List.nodup_cons.mp hnodup
  obtain ⟨hplink, hchain⟩ := List.isChain_cons_cons.mp h.closed
  obtain ⟨-, hchain⟩ := List.isChain_cons_cons.mp hchain
  have hpeq : (s :: l).getLast (List.cons_ne_nil s l) = p := by
    rw [← Option.some_inj, ← hp, h.prev_eq, List.getLast_cons_cons]
  rw [List.getLast_cons_cons, hpeq] at hplink
  have hpmem : p ∈ s :: l := hpeq ▸ List.getLast_mem _
  have hne {a : α} (ha : a ∈ s :: l) : a ≠ node := fun h => hnode (h ▸ ha)
  refine loop_of_closed hrest ?_
  rw [hpeq, List.isChain_cons_cons]
  refine ⟨⟨?_, ?_⟩, ?_⟩
  · rw [Function.update_of_ne (hne hpmem), Function.update_self]
  · rw [Function.update_of_ne (hne List.mem_cons_self), Function.update_self]
  · refine linked_rest p hchain (fun a ha hap => ?_) (fun a ha => ?_) fun b hb hlinked => ?_
    · rw [Function.update_of_ne (hne ha), Function.update_of_ne hap]
    · have has : a ≠ s := fun h => (List.nodup_cons.mp hrest).1 (h ▸ ha)
      rw [Function.update_of_ne (hne (List.mem_cons_of_mem s ha)), Function.update_of_ne has]
    · rw [← hplink.unique_right hlinked] at hb
      exact hnode (List.mem_cons_of_mem s hb)

end Writing

end WchIotSdk.PointerRing
