import WchIotSdk.PointerRing
import WchIotSdk.EventRuns

/-!
# The doubly linked list

A list is a node itself: its first pointer is that to the next node, its last pointer
that to the previous one, and both lead back to it when it is empty. A list and the
nodes in it form a ring. A function has no result where it would follow a null pointer,
or where its loop does not end in the steps given.
-/
namespace WchIotSdk.Dlist
open PointerRing EventRuns

/-- `struct _dnode`, of nodes and of lists: `next` is also `head`, `prev` also `tail`. -/
structure Memory (α : Type*) where
  next : α → Option α
  prev : α → Option α

variable {α : Type*} [DecidableEq α]

section Operations

variable (m : Memory α)

def setNext (node : α) (v : Option α) : Memory α := { m with next := Function.update m.next node v }
def setPrev (node : α) (v : Option α) : Memory α := { m with prev := Function.update m.prev node v }

def sysDlistInit (list : α) : Memory α := setPrev (setNext m list (some list)) list (some list)
def sysDnodeInit (node : α) : Memory α := setPrev (setNext m node none) node none
def sysDnodeIsLinked (node : α) : Bool := (m.next node).isSome

def sysDlistIsHead (list node : α) : Bool := m.next list = some node
def sysDlistIsTail (list node : α) : Bool := m.prev list = some node
def sysDlistIsEmpty (list : α) : Bool := m.next list = some list
def sysDlistHasMultipleNodes (list : α) : Bool := m.next list ≠ m.prev list

def sysDlistPeekHead (list : α) : Option α :=
  if sysDlistIsEmpty m list then none else m.next list
def sysDlistPeekHeadNotEmpty (list : α) : Option α := m.next list
def sysDlistPeekNextNoCheck (list node : α) : Option α :=
  if some node = m.prev list then none else m.next node
def sysDlistPeekNext (list : α) (node : Option α) : Option α :=
  node.bind (sysDlistPeekNextNoCheck m list)
def sysDlistPeekPrevNoCheck (list node : α) : Option α :=
  if some node = m.next list then none else m.prev node
def sysDlistPeekPrev (list : α) (node : Option α) : Option α :=
  node.bind (sysDlistPeekPrevNoCheck m list)
def sysDlistPeekTail (list : α) : Option α :=
  if sysDlistIsEmpty m list then none else m.prev list

def sysDlistAppend (list node : α) : Option (Memory α) := do
  let tail ← m.prev list
  let m := setNext m node (some list)
  let m := setPrev m node (some tail)
  let m := setNext m tail (some node)
  some (setPrev m list (some node))

def sysDlistPrepend (list node : α) : Option (Memory α) := do
  let head ← m.next list
  let m := setNext m node (some head)
  let m := setPrev m node (some list)
  let m := setPrev m head (some node)
  some (setNext m list (some node))

def sysDlistInsert (successor node : α) : Option (Memory α) := do
  let prev ← m.prev successor
  let m := setPrev m node (some prev)
  let m := setNext m node (some successor)
  let m := setNext m prev (some node)
  some (setPrev m successor (some node))

/-- The loop of `sys_dlist_insert_at`: the first node that meets the condition. -/
def insertAtLoop (list : α) (cond : α → Bool) : ℕ → Option α → Option (Option α)
  | 0, _ => none
  | _ + 1, none => some none
  | n + 1, some pos =>
    if cond pos then some (some pos)
    else insertAtLoop list cond n (sysDlistPeekNext m list (some pos))

def sysDlistInsertAt (steps : ℕ) (list node : α) (cond : α → Bool) : Option (Memory α) :=
  if sysDlistIsEmpty m list then sysDlistAppend m list node
  else do
    match ← insertAtLoop m list cond steps (sysDlistPeekHead m list) with
    | some pos => sysDlistInsert m pos node
    | none => sysDlistAppend m list node

def sysDlistRemove (node : α) : Option (Memory α) := do
  let prev ← m.prev node
  let next ← m.next node
  let m := setNext m prev (some next)
  let m := setPrev m next (some prev)
  some (sysDnodeInit m node)

/-- The memory afterwards and the node taken from the front. -/
def sysDlistGet (list : α) : Option (Memory α × Option α) :=
  if sysDlistIsEmpty m list then some (m, none)
  else do
    let node ← m.next list
    let m ← sysDlistRemove m node
    some (m, some node)

/-- `SYS_DLIST_FOR_EACH_NODE`: the nodes visited from a pointer on. -/
def forEachNode (list : α) : ℕ → Option α → Option (List α)
  | 0, _ => none
  | _ + 1, none => some []
  | n + 1, some node =>
    (forEachNode list n (sysDlistPeekNext m list (some node))).map (node :: ·)

end Operations

/-- The list has exactly these nodes, in this order. -/
def Holds (m : Memory α) (list : α) (l : List α) : Prop := Loop m.next m.prev ↑(list :: l)

section Contents

variable {m : Memory α} {list node : α} {l pre post : List α}

omit [DecidableEq α] in
lemma Holds.nodup (h : Holds m list l) : (list :: l).Nodup := Loop.nodup_list h

omit [DecidableEq α] in
lemma Holds.head_eq (h : Holds m list l) : m.next list = (l ++ [list]).head? := by
  rw [Loop.next_eq h, List.head?_eq_some_head]

omit [DecidableEq α] in
lemma Holds.tail_eq (h : Holds m list l) : m.prev list = (list :: l).getLast? := by
  rw [Loop.prev_eq h, List.getLast?_eq_some_getLast]

omit [DecidableEq α] in
/-- The ring, seen from another of its nodes. -/
lemma Holds.from (h : Holds m list (pre ++ node :: post)) :
    Loop m.next m.prev ↑(node :: (post ++ list :: pre)) := Loop.rotate (l := list :: pre) h

omit [DecidableEq α] in
lemma Holds.next_eq (h : Holds m list (pre ++ node :: post)) :
    m.next node = (post ++ [list]).head? := by
  rw [Loop.next_eq h.from, ← List.head?_eq_some_head]
  cases post <;> rfl

omit [DecidableEq α] in
lemma Holds.prev_eq (h : Holds m list (pre ++ node :: post)) :
    m.prev node = (list :: pre).getLast? := by
  rw [Loop.prev_eq h.from, ← List.getLast?_eq_some_getLast, ← List.cons_append,
    List.getLast?_append_of_ne_nil _ (List.cons_ne_nil list pre)]

lemma Holds.isEmpty (h : Holds m list l) : sysDlistIsEmpty m list = l.isEmpty := by
  rw [sysDlistIsEmpty, h.head_eq]
  cases l with
  | nil => simp
  | cons a l =>
    have hne : a ≠ list := fun heq => (List.nodup_cons.mp h.nodup).1 (heq ▸ List.mem_cons_self)
    simp [hne]

lemma Holds.peekHead (h : Holds m list l) : sysDlistPeekHead m list = l.head? := by
  rw [sysDlistPeekHead, h.isEmpty, h.head_eq]
  cases l <;> rfl

lemma Holds.peekNext (h : Holds m list (pre ++ node :: post)) :
    sysDlistPeekNext m list (some node) = post.head? := by
  show (if some node = m.prev list then none else m.next node) = post.head?
  rw [h.tail_eq, h.next_eq]
  cases post with
  | nil => simp [List.getLast?_cons]
  | cons b post =>
    have hlast : (list :: (pre ++ node :: b :: post)).getLast? = (b :: post).getLast? := by
      rw [← List.cons_append, List.getLast?_append_cons, List.getLast?_cons_cons]
    have hne : some node ≠ (b :: post).getLast? := by
      intro heq
      have hnodup := (List.nodup_append.mp (List.nodup_cons.mp h.nodup).2).2.1
      exact (List.nodup_cons.mp hnodup).1 (List.mem_of_getLast? heq.symm)
    rw [hlast, if_neg hne]
    rfl

/-- The same backwards. -/
lemma Holds.peekTail (h : Holds m list l) : sysDlistPeekTail m list = l.getLast? := by
  rw [sysDlistPeekTail, h.isEmpty, h.tail_eq]
  cases l with
  | nil => rfl
  | cons a l => simp [List.getLast?_cons_cons]

lemma Holds.peekPrev (h : Holds m list (pre ++ node :: post)) :
    sysDlistPeekPrev m list (some node) = pre.getLast? := by
  show (if some node = m.next list then none else m.prev node) = pre.getLast?
  rw [h.head_eq, h.prev_eq]
  cases pre with
  | nil => simp
  | cons a pre =>
    have hne : node ≠ a := by
      rintro rfl
      exact (List.nodup_cons.mp (List.nodup_cons.mp h.nodup).2).1 (by simp)
    simp [hne, List.getLast?_cons_cons]

/-- The tests of a node of the list, and of the list. -/
lemma Holds.isHead (h : Holds m list l) (hnode : node ∈ l) :
    sysDlistIsHead m list node = decide (l.head? = some node) := by
  rw [sysDlistIsHead, h.head_eq]
  cases l with
  | nil => exact absurd hnode List.not_mem_nil
  | cons a l => rfl

lemma Holds.isTail (h : Holds m list l) (hnode : node ∈ l) :
    sysDlistIsTail m list node = decide (l.getLast? = some node) := by
  rw [sysDlistIsTail, h.tail_eq]
  cases l with
  | nil => exact absurd hnode List.not_mem_nil
  | cons a l => rw [List.getLast?_cons_cons]

lemma Holds.hasMultipleNodes (h : Holds m list l) :
    sysDlistHasMultipleNodes m list = decide (1 < l.length) := by
  rw [sysDlistHasMultipleNodes, h.head_eq, h.tail_eq]
  match l, h.nodup with
  | [], _ => simp
  | [a], _ => simp
  | a :: b :: l, hnodup =>
    have hne : some a ≠ (b :: l).getLast? := fun heq =>
      (List.nodup_cons.mp (List.nodup_cons.mp hnodup).2).1 (List.mem_of_getLast? heq.symm)
    have hlength : 1 < (a :: b :: l).length := by simp
    rw [List.getLast?_cons_cons, List.getLast?_cons_cons, decide_eq_true hlength]
    exact decide_eq_true hne

omit [DecidableEq α] in
lemma Holds.peekHeadNotEmpty (h : Holds m list l) (hl : l ≠ []) :
    sysDlistPeekHeadNotEmpty m list = l.head? := by
  rw [sysDlistPeekHeadNotEmpty, h.head_eq, List.head?_append_of_ne_nil _ hl]

omit [DecidableEq α] in
/-- Every node of the ring points on. -/
lemma Holds.isLinked (h : Holds m list l) (hnode : node ∈ list :: l) :
    sysDnodeIsLinked m node = true := by
  rw [sysDnodeIsLinked]
  rcases List.mem_cons.mp hnode with rfl | hmem
  · rw [h.head_eq]
    cases l <;> rfl
  · obtain ⟨pre, post, rfl⟩ := List.append_of_mem hmem
    rw [h.next_eq]
    cases post <;> rfl

lemma forEachNode_eq {steps : ℕ} (h : Holds m list (pre ++ post)) (hsteps : post.length < steps) :
    forEachNode m list steps post.head? = some post := by
  induction post generalizing pre steps with
  | nil =>
    cases steps with
    | zero => exact absurd hsteps (by simp)
    | succ n => rfl
  | cons node post ih =>
    cases steps with
    | zero => exact absurd hsteps (by simp)
    | succ n =>
      have hpass : Holds m list ((pre ++ [node]) ++ post) := by simpa using h
      have hrest := ih hpass (by simpa using hsteps)
      show (forEachNode m list n (sysDlistPeekNext m list (some node))).map (node :: ·) = _
      rw [h.peekNext, hrest]
      rfl

end Contents

section Updates

variable (m : Memory α)

/-- The node between the two neighbours. -/
def linkBetween (p s node : α) : Memory α :=
  ⟨Function.update (Function.update m.next node (some s)) p (some node),
    Function.update (Function.update m.prev node (some p)) s (some node)⟩

/-- The node left without neighbours, and these linked to each other. -/
def unlinkBetween (p s node : α) : Memory α :=
  ⟨Function.update (Function.update m.next p (some s)) node none,
    Function.update (Function.update m.prev s (some p)) node none⟩

variable {m} {p s list node : α}

lemma append_eq (h : m.prev list = some p) :
    sysDlistAppend m list node = some (linkBetween m p list node) := by
  rw [sysDlistAppend, h]
  rfl

lemma prepend_eq (h : m.next list = some s) :
    sysDlistPrepend m list node = some (linkBetween m list s node) := by
  rw [sysDlistPrepend, h]
  rfl

lemma insert_eq (h : m.prev s = some p) :
    sysDlistInsert m s node = some (linkBetween m p s node) := by
  rw [sysDlistInsert, h]
  rfl

lemma remove_eq (hp : m.prev node = some p) (hs : m.next node = some s) :
    sysDlistRemove m node = some (unlinkBetween m p s node) := by
  rw [sysDlistRemove, hp, hs]
  rfl

end Updates

section Contents

variable {m : Memory α} {list node s : α} {l pre post : List α}

/-- `sys_dlist_append`, and what it writes. -/
theorem append_holds (h : Holds m list l) (hnode : node ∉ list :: l) :
    ∃ p ∈ list :: l, sysDlistAppend m list node = some (linkBetween m p list node) ∧
      Holds (linkBetween m p list node) list (l ++ [node]) := by
  have hprev := Loop.prev_eq h
  exact ⟨_, List.getLast_mem _, append_eq hprev, Loop.insert h hprev hnode⟩

theorem prepend_holds (h : Holds m list l) (hnode : node ∉ list :: l) :
    ∃ s ∈ list :: l, sysDlistPrepend m list node = some (linkBetween m list s node) ∧
      Holds (linkBetween m list s node) list (node :: l) := by
  cases l with
  | nil =>
    have hprev : m.prev list = some list := Loop.prev_eq h
    exact ⟨list, List.mem_cons_self, prepend_eq h.head_eq, Loop.insert h hprev hnode⟩
  | cons s l =>
    have hfirst : Holds m list ([] ++ s :: l) := h
    have hprev : m.prev s = some list := hfirst.prev_eq
    refine ⟨s, by simp, prepend_eq h.head_eq, ?_⟩
    have hfrom : Loop m.next m.prev ↑(s :: (l ++ [list])) := hfirst.from
    have hperm : (s :: l ++ [list]).Perm ([list] ++ s :: l) := List.perm_append_comm
    have hout : node ∉ s :: (l ++ [list]) := fun hmem => hnode (hperm.mem_iff.mp hmem)
    have hloop := Loop.insert hfrom hprev hout
    rw [List.append_assoc] at hloop
    exact Loop.rotate (l := s :: l) hloop

theorem insert_holds (h : Holds m list (pre ++ s :: post))
    (hnode : node ∉ list :: (pre ++ s :: post)) :
    ∃ p ∈ list :: pre, sysDlistInsert m s node = some (linkBetween m p s node) ∧
      Holds (linkBetween m p s node) list (pre ++ node :: s :: post) := by
  have hprev := h.prev_eq
  rw [List.getLast?_eq_some_getLast (List.cons_ne_nil list pre)] at hprev
  refine ⟨_, List.getLast_mem _, insert_eq hprev, ?_⟩
  have hperm : (s :: post ++ list :: pre).Perm (list :: pre ++ s :: post) := List.perm_append_comm
  have hout : node ∉ s :: (post ++ list :: pre) := fun hmem => hnode (hperm.mem_iff.mp hmem)
  have hloop := Loop.insert h.from hprev hout
  have hsplit : s :: (post ++ list :: pre ++ [node]) =
      (s :: post) ++ (list :: (pre ++ [node])) := by
    simp
  rw [hsplit] at hloop
  have hback := Loop.rotate hloop
  rwa [List.cons_append, List.append_assoc] at hback

theorem remove_holds (h : Holds m list (pre ++ node :: post)) :
    ∃ p ∈ list :: pre, ∃ s ∈ post ++ [list],
      sysDlistRemove m node = some (unlinkBetween m p s node) ∧
      Holds (unlinkBetween m p s node) list (pre ++ post) := by
  have hprev := h.prev_eq
  have hnext := h.next_eq
  rw [List.getLast?_eq_some_getLast (List.cons_ne_nil list pre)] at hprev
  have hloop := h.from
  cases post with
  | nil =>
    refine ⟨_, List.getLast_mem _, list, by simp, remove_eq hprev hnext, ?_⟩
    rw [List.append_nil]
    exact Loop.remove hloop hprev
  | cons s post =>
    refine ⟨_, List.getLast_mem _, s, by simp, remove_eq hprev hnext, ?_⟩
    have hback := Loop.remove hloop hprev
    exact Loop.rotate (l := s :: post) hback

/-- The loop passes the nodes that do not meet the condition. -/
lemma insertAtLoop_eq {rest : List α} (cond : α → Bool) {steps : ℕ}
    (h : Holds m list (pre ++ rest)) (hsteps : rest.length < steps) :
    insertAtLoop m list cond steps rest.head? = some (rest.find? cond) := by
  induction rest generalizing pre steps with
  | nil =>
    cases steps with
    | zero => exact absurd hsteps (by simp)
    | succ n => rfl
  | cons pos rest ih =>
    cases steps with
    | zero => exact absurd hsteps (by simp)
    | succ n =>
      have hpass : Holds m list ((pre ++ [pos]) ++ rest) := by simpa using h
      have hrest := ih hpass (by simpa using hsteps)
      show (if cond pos then _ else insertAtLoop m list cond n
        (sysDlistPeekNext m list (some pos))) = _
      rw [h.peekNext, hrest]
      cases hpos : cond pos <;> simp [hpos]

end Contents

end WchIotSdk.Dlist
