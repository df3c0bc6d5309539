import WchIotSdk.PointerChain
import Mathlib.Data.List.Basic

/-!
# The singly linked list

The nodes of a list lie in the objects that the list holds, so that the list has
only the pointers to its first and its last node. A list holds the nodes of the
chain from the first one on, and its last pointer leads to the last of them.

The loops run as long as they are given steps and have no result before they end.
-/
namespace WchIotSdk.Slist
open PointerChain

/-- `sys_slist_t` with the next pointers of the nodes in memory. -/
structure SysSlist (α : Type*) where
  head : Option α
  tail : Option α
  next : α → Option α

variable {α : Type*} [DecidableEq α]

section Operations

variable (s : SysSlist α)

def zSnodeNextPeek (node : α) : Option α := s.next node
def zSnodeNextSet (parent : α) (child : Option α) : SysSlist α :=
  { s with next := Function.update s.next parent child }
def zSlistHeadSet (node : Option α) : SysSlist α := { s with head := node }
def zSlistTailSet (node : Option α) : SysSlist α := { s with tail := node }

def sysSlistInit : SysSlist α := { s with head := none, tail := none }
def sysSlistPeekHead : Option α := s.head
def sysSlistPeekTail : Option α := s.tail
def sysSlistIsEmpty : Bool := (sysSlistPeekHead s).isNone

def sysSlistPeekNext : Option α → Option α
  | none => none
  | some node => zSnodeNextPeek s node

def sysSlistPrepend (node : α) : SysSlist α :=
  let s := zSnodeNextSet s node (sysSlistPeekHead s)
  let s := zSlistHeadSet s (some node)
  if sysSlistPeekTail s = none then zSlistTailSet s (sysSlistPeekHead s) else s

def sysSlistAppend (node : α) : SysSlist α :=
  let s := zSnodeNextSet s node none
  match sysSlistPeekTail s with
  | none =>
    let s := zSlistTailSet s (some node)
    zSlistHeadSet s (some node)
  | some tail =>
    let s := zSnodeNextSet s tail (some node)
    zSlistTailSet s (some node)

def sysSlistRemove (prevNode : Option α) (node : α) : SysSlist α :=
  let s := match prevNode with
    | none =>
      let s := zSlistHeadSet s (zSnodeNextPeek s node)
      -- was the node also the tail?
      if sysSlistPeekTail s = some node then zSlistTailSet s (sysSlistPeekHead s) else s
    | some prevNode =>
      let s := zSnodeNextSet s prevNode (zSnodeNextPeek s node)
      if sysSlistPeekTail s = some node then zSlistTailSet s (some prevNode) else s
  zSnodeNextSet s node none

def findAndRemoveLoop (node : α) : ℕ → Option α → Option α → Option (SysSlist α × Bool)
  | 0, _, _ => none
  | _ + 1, _, none => some (s, false)
  | n + 1, prev, some test =>
    if test = node then some (sysSlistRemove s prev node, true)
    else findAndRemoveLoop node n (some test) (sysSlistPeekNext s (some test))

def sysSlistFindAndRemove (steps : ℕ) (node : α) : Option (SysSlist α × Bool) :=
  findAndRemoveLoop s node steps none (sysSlistPeekHead s)

end Operations

/-- The list has exactly these nodes, in this order. -/
structure Holds (s : SysSlist α) (l : List α) : Prop where
  chain : Chain s.next s.head l
  tail : s.tail = l.getLast?

section Contents

variable {s : SysSlist α} {l pre mid post : List α} {node : α}

omit [DecidableEq α]

lemma Holds.nodup (h : Holds s l) : l.Nodup := Chain.nodup h.chain

lemma Holds.unique {l' : List α} (h : Holds s l) (h' : Holds s l') : l = l' :=
  Chain.unique h.chain h'.chain

lemma Holds.head_eq (h : Holds s l) : s.head = l.head? := Chain.head_eq h.chain

lemma Holds.isEmpty (h : Holds s l) : sysSlistIsEmpty s = l.isEmpty := by
  rw [sysSlistIsEmpty, sysSlistPeekHead, h.head_eq]
  cases l <;> rfl

lemma Holds.peekNext (h : Holds s (pre ++ node :: post)) :
    sysSlistPeekNext s (some node) = post.head? := Chain.next_eq h.chain

lemma Holds.peekNext_head {rest : List α} (h : Holds s (pre ++ rest)) :
    sysSlistPeekNext s rest.head? = rest.tail.head? := by
  cases rest with
  | nil => rfl
  | cons b rest => exact h.peekNext

lemma holds_init : Holds (sysSlistInit s) [] := ⟨rfl, rfl⟩

end Contents

section Updates

variable (s : SysSlist α) (node : α)

lemma prepend_eq : sysSlistPrepend s node =
    ⟨some node, if s.tail = none then some node else s.tail,
      Function.update s.next node s.head⟩ := by
  show (if s.tail = none then _ else _) = _
  split_ifs <;> rfl

lemma append_none_eq (h : s.tail = none) : sysSlistAppend s node =
    ⟨some node, some node, Function.update s.next node none⟩ := by
  rw [sysSlistAppend]
  show (match s.tail with | none => _ | some tail => _) = _
  rw [h]
  rfl

lemma append_some_eq {tail : α} (h : s.tail = some tail) : sysSlistAppend s node =
    ⟨s.head, some node,
      Function.update (Function.update s.next node none) tail (some node)⟩ := by
  rw [sysSlistAppend]
  show (match s.tail with | none => _ | some tail => _) = _
  rw [h]
  rfl

lemma remove_none_eq : sysSlistRemove s none node =
    ⟨s.next node, if s.tail = some node then s.next node else s.tail,
      Function.update s.next node none⟩ := by
  show zSnodeNextSet (if s.tail = some node then _ else _) node none = _
  split_ifs <;> rfl

lemma remove_some_eq (prev : α) : sysSlistRemove s (some prev) node =
    ⟨s.head, if s.tail = some node then some prev else s.tail,
      Function.update (Function.update s.next prev (s.next node)) node none⟩ := by
  show zSnodeNextSet (if s.tail = some node then _ else _) node none = _
  split_ifs <;> rfl

end Updates

section Contents

variable {s : SysSlist α} {l pre post : List α} {node : α}

/-- The tail was null exactly for the empty list. -/
theorem prepend_holds (h : Holds s l) (hnode : node ∉ l) :
    Holds (sysSlistPrepend s node) (node :: l) := by
  rw [prepend_eq]
  refine ⟨Chain.push h.chain hnode, ?_⟩
  show (if s.tail = none then some node else s.tail) = _
  rw [h.tail]
  cases l with
  | nil => rfl
  | cons b l => rw [List.getLast?_cons_cons, if_neg (by simp)]

theorem append_holds (h : Holds s l) (hnode : node ∉ l) :
    Holds (sysSlistAppend s node) (l ++ [node]) := by
  obtain rfl | ⟨pre, last, rfl⟩ := List.eq_nil_or_concat' l
  · rw [append_none_eq s node h.tail]
    exact ⟨⟨rfl, Function.update_self ..⟩, rfl⟩
  · have htail : s.tail = some last := h.tail.trans List.getLast?_concat
    rw [append_some_eq s node htail]
    refine ⟨?_, List.getLast?_concat.symm⟩
    have hchain := Chain.push_back h.chain hnode
    rwa [List.append_assoc, List.singleton_append]

/-- Appending the last node again makes it point to itself. -/
lemma append_last_self (h : Holds s (pre ++ [node])) :
    Segment (sysSlistAppend s node).next (sysSlistAppend s node).head pre (some node) ∧
      (sysSlistAppend s node).next node = some node := by
  have htail : s.tail = some node := h.tail.trans List.getLast?_concat
  have hpre : node ∉ pre := by
    have hnodup := h.nodup
    rw [List.nodup_append] at hnodup
    exact fun hmem => hnodup.2.2 node hmem node List.mem_cons_self rfl
  obtain ⟨m, hfront, hm, -⟩ := segment_append.mp h.chain
  rw [hm] at hfront
  rw [append_some_eq s node htail]
  exact ⟨(segment_update hpre).mpr ((segment_update hpre).mpr hfront), Function.update_self ..⟩

theorem append_last_not_holds (h : Holds s (pre ++ [node])) :
    ¬ Holds (sysSlistAppend s node) l := by
  obtain ⟨hpath, hself⟩ := append_last_self h
  exact fun hl => not_chain_of_self hpath hself hl.chain

/-- Appending a node again cuts off the nodes that followed it. -/
theorem append_inner_holds {last : α} (h : Holds s (pre ++ node :: (post ++ [last]))) :
    Holds (sysSlistAppend s node) (pre ++ [node]) := by
  have htail : s.tail = some last := by
    rw [h.tail, ← List.cons_append, ← List.append_assoc, List.getLast?_concat]
  have hnodup := h.nodup
  rw [List.nodup_append, List.nodup_cons] at hnodup
  obtain ⟨-, ⟨hpost, -⟩, hdisj⟩ := hnodup
  have hpre : node ∉ pre := fun hmem => hdisj node hmem node List.mem_cons_self rfl
  have hlast : last ∉ pre :=
    fun hmem => hdisj last hmem last (List.mem_cons_of_mem node (by simp)) rfl
  have hne : node ≠ last := by
    rintro rfl
    exact hpost (by simp)
  obtain ⟨m, hfront, hm, -⟩ := segment_append.mp h.chain
  rw [append_some_eq s node htail]
  refine ⟨segment_append.mpr ⟨m, ?_, hm, ?_⟩, List.getLast?_concat.symm⟩
  · exact (segment_update hlast).mpr ((segment_update hpre).mpr hfront)
  · show Function.update (Function.update s.next node none) last (some node) node = none
    rw [Function.update_of_ne hne, Function.update_self]

/-- The last of two adjacent lists, once the node between them is taken out. -/
lemma getLast?_without (hnodup : (pre ++ node :: post).Nodup) :
    (pre ++ post).getLast? =
      if (pre ++ node :: post).getLast? = some node then pre.getLast?
      else (pre ++ node :: post).getLast? := by
  cases post with
  | nil => simp
  | cons b post =>
    have hne : (pre ++ node :: b :: post).getLast? = (b :: post).getLast? := by
      rw [List.getLast?_append_cons, List.getLast?_cons_cons]
    have hnode : node ∉ b :: post :=
      (List.nodup_cons.mp (List.nodup_append.mp hnodup).2.1).1
    have hlast : (b :: post).getLast? ≠ some node := by
      intro heq
      exact hnode (List.mem_of_getLast? heq)
    rw [hne, if_neg hlast, List.getLast?_append_cons]

theorem remove_holds (h : Holds s (pre ++ node :: post)) :
    Holds (sysSlistRemove s pre.getLast? node) (pre ++ post) := by
  have hnodup := h.nodup
  have htail := getLast?_without hnodup
  have hout : node ∉ pre ++ post := by
    rw [List.nodup_append, List.nodup_cons] at hnodup
    obtain ⟨-, ⟨hpost, -⟩, hdisj⟩ := hnodup
    rw [List.mem_append, not_or]
    exact ⟨fun hmem => hdisj node hmem node List.mem_cons_self rfl, hpost⟩
  rw [← h.tail] at htail
  obtain rfl | ⟨pre, p, rfl⟩ := List.eq_nil_or_concat' pre
  · rw [List.getLast?_nil, remove_none_eq]
    refine ⟨(segment_update hout).mpr h.chain.2, ?_⟩
    show (if s.tail = some node then s.next node else s.tail) = post.getLast?
    rw [List.nil_append, List.getLast?_nil] at htail
    split_ifs at htail ⊢ with hlast
    · -- the removed node was the only one
      obtain rfl := List.getLast?_eq_none_iff.mp htail
      exact h.chain.2
    · exact htail.symm
  · rw [List.getLast?_concat, remove_some_eq]
    have hchain : Chain s.next s.head (pre ++ p :: node :: post) := by
      simpa using h.chain
    refine ⟨(segment_update hout).mpr ?_, ?_⟩
    · simpa using Chain.unlink hchain
    · show (if s.tail = some node then some p else s.tail) = _
      rw [htail, List.getLast?_concat]

/-- The loop passes the nodes that are not looked for. -/
lemma findAndRemoveLoop_passes {mid rest : List α} (n : ℕ) (h : Holds s (pre ++ (mid ++ rest)))
    (hnode : node ∉ mid) :
    findAndRemoveLoop s node (n + mid.length) pre.getLast? (mid ++ rest).head? =
      findAndRemoveLoop s node n (pre ++ mid).getLast? rest.head? := by
  induction mid generalizing pre with
  | nil => rw [List.append_nil]; rfl
  | cons test mid ih =>
    rw [List.mem_cons, not_or] at hnode
    have hpass : Holds s ((pre ++ [test]) ++ (mid ++ rest)) := by simpa using h
    have hloop := ih hpass hnode.2
    rw [List.getLast?_concat, List.append_assoc] at hloop
    show (if test = node then _ else findAndRemoveLoop s node (n + mid.length) (some test)
      (sysSlistPeekNext s (some test))) = _
    rw [if_neg (Ne.symm hnode.1), h.peekNext]
    exact hloop

theorem findAndRemove_absent {steps : ℕ} (h : Holds s l) (hsteps : l.length < steps)
    (hnode : node ∉ l) : sysSlistFindAndRemove s steps node = some (s, false) := by
  obtain ⟨n, rfl⟩ : ∃ n, steps = n + 1 + l.length := ⟨steps - 1 - l.length, by omega⟩
  have hall : Holds s ([] ++ (l ++ [])) := by rwa [List.append_nil]
  have hpass := findAndRemoveLoop_passes (n + 1) hall hnode
  rw [List.append_nil, ← h.head_eq] at hpass
  exact hpass

theorem findAndRemove_present {steps : ℕ} (h : Holds s l) (hsteps : l.length < steps)
    (hnode : node ∈ l) :
    ∃ s', sysSlistFindAndRemove s steps node = some (s', true) ∧ Holds s' (l.erase node) := by
  obtain ⟨pre, post, hpre, rfl, herase⟩ := List.exists_erase_eq hnode
  rw [List.length_append] at hsteps
  obtain ⟨n, rfl⟩ : ∃ n, steps = n + 1 + pre.length := ⟨steps - 1 - pre.length, by omega⟩
  have hall : Holds s ([] ++ (pre ++ node :: post)) := h
  have hpass := findAndRemoveLoop_passes (n + 1) hall hpre
  rw [← h.head_eq] at hpass
  refine ⟨sysSlistRemove s pre.getLast? node, hpass.trans (if_pos rfl), ?_⟩
  rw [herase]
  exact remove_holds h

end Contents

end WchIotSdk.Slist
