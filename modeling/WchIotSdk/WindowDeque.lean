import Mathlib.Tactic

/-!
# A deque that is a window of a fixed storage

The storage is cut into the part before the window, the window itself, and the
part after it. Items enter the window from either side: either the window grows
over what the storage holds there, or new items are put there first. They leave
it by shrinking, which forgets nothing: they stay in the storage next to the
window. The place of a window can be saved, and the window moved back there.
-/
namespace WchIotSdk.WindowDeque

/-- A storage with a window. The deque is `body`. -/
@[ext] structure Window (α : Type*) where
  front : List α
  body : List α
  back : List α
  deriving DecidableEq, Repr

inductive Op (α : Type*) where
  | growBack (n : ℕ)
  | addBack (xs : List α)
  | dropBack (n : ℕ)
  | growFront (n : ℕ)
  | addFront (xs : List α)
  | dropFront (n : ℕ)
  /-- move the window to offset `i`, with `n` items -/
  | move (i n : ℕ)
  deriving DecidableEq, Repr

variable {α : Type*}

namespace Window

def storage (d : Window α) : List α := d.front ++ d.body ++ d.back

def apply (d : Window α) : Op α → Window α
  | .growBack n => ⟨d.front, d.body ++ d.back.take n, d.back.drop n⟩
  | .addBack xs => ⟨d.front, d.body ++ xs, d.back.drop xs.length⟩
  | .dropBack n =>
    ⟨d.front, d.body.take (d.body.length - n), d.body.drop (d.body.length - n) ++ d.back⟩
  | .growFront n =>
    ⟨d.front.take (d.front.length - n), d.front.drop (d.front.length - n) ++ d.body, d.back⟩
  | .addFront xs => ⟨d.front.take (d.front.length - xs.length), xs ++ d.body, d.back⟩
  | .dropFront n => ⟨d.front ++ d.body.take n, d.body.drop n, d.back⟩
  | .move i n =>
    ⟨d.storage.take i, (d.storage.drop i).take n, (d.storage.drop i).drop n⟩

/-- There is room for what enters, and enough for what leaves. -/
def Fits (d : Window α) : Op α → Prop
  | .growBack n => n ≤ d.back.length
  | .addBack xs => xs.length ≤ d.back.length
  | .dropBack n => n ≤ d.body.length
  | .growFront n => n ≤ d.front.length
  | .addFront xs => xs.length ≤ d.front.length
  | .dropFront n => n ≤ d.body.length
  | .move i n => i + n ≤ d.storage.length

/-- Operations that only move the borders of the window. -/
def OnlyMoves : Op α → Prop
  | .addBack _ | .addFront _ => False
  | _ => True

/-- Moving the borders keeps the storage. -/
theorem storage_apply_of_onlyMoves (d : Window α) {op : Op α} (h : OnlyMoves op) :
    (d.apply op).storage = d.storage := by
  cases op with
  | addBack xs => exact h.elim
  | addFront xs => exact h.elim
  | dropBack n =>
    show d.front ++ d.body.take _ ++ (d.body.drop _ ++ d.back) = d.storage
    rw [← List.append_assoc, List.append_assoc d.front, List.take_append_drop, storage]
  | growFront n =>
    show d.front.take _ ++ (d.front.drop _ ++ d.body) ++ d.back = d.storage
    rw [← List.append_assoc, List.take_append_drop, storage]
  | _ => simp [apply, storage]

/-- A window can be moved back to where it was, as long as the storage is kept. -/
theorem apply_move_back (d d' : Window α) (h : d'.storage = d.storage) :
    d'.apply (.move d.front.length d.body.length) = d := by
  have hdrop : d.storage.drop d.front.length = d.body ++ d.back := by
    simp [storage, List.append_assoc]
  simp only [apply, h, hdrop, List.take_left, List.drop_left]
  ext1 <;> simp [storage]

end Window

/-- A window, and the places it was saved at: the offset and the number of items
of each. -/
@[ext] structure Deque (α : Type*) where
  window : Window α
  places : List (ℕ × ℕ)
  deriving DecidableEq, Repr

inductive Cmd (α : Type*) where
  | op (o : Op α)
  | save
  /-- move the window back to the `k`th place saved -/
  | restore (k : ℕ)
  deriving DecidableEq, Repr

namespace Deque

def apply (d : Deque α) : Cmd α → Deque α
  | .op o => ⟨d.window.apply o, d.places⟩
  | .save => ⟨d.window, d.places ++ [(d.window.front.length, d.window.body.length)]⟩
  | .restore k =>
    match d.places[k]? with
    | some (i, n) => ⟨d.window.apply (.move i n), d.places⟩
    | none => d

def Fits (d : Deque α) : Cmd α → Prop
  | .op o => d.window.Fits o
  | .save => True
  | .restore k => ∃ place ∈ d.places[k]?, place.1 + place.2 ≤ d.window.storage.length

def OnlyMoves : Cmd α → Prop
  | .op o => Window.OnlyMoves o
  | .save | .restore _ => True

theorem storage_apply_of_onlyMoves (d : Deque α) {c : Cmd α} (h : OnlyMoves c) :
    (d.apply c).window.storage = d.window.storage := by
  cases c with
  | op o => exact Window.storage_apply_of_onlyMoves _ h
  | save => rfl
  | restore k =>
    simp only [apply]
    split
    · exact Window.storage_apply_of_onlyMoves _ trivial
    · rfl

/-- Places are only ever added. -/
lemma places_apply (d : Deque α) (c : Cmd α) : ∃ more, (d.apply c).places = d.places ++ more := by
  cases c with
  | op o => exact ⟨[], (List.append_nil _).symm⟩
  | save => exact ⟨_, rfl⟩
  | restore k =>
    refine ⟨[], ?_⟩
    simp only [apply]
    split <;> simp

/-- A window saved in `d` comes back in any deque over the same storage that
still knows its place. -/
theorem restore_saved (d d' : Deque α) (hstorage : d'.window.storage = d.window.storage)
    {more : List (ℕ × ℕ)} (hplaces : d'.places = (d.apply .save).places ++ more) :
    (d'.apply (.restore d.places.length)).window = d.window := by
  have hget : d'.places[d.places.length]? =
      some (d.window.front.length, d.window.body.length) := by
    simp [hplaces, apply]
  simp only [apply, hget]
  exact Window.apply_move_back _ _ hstorage

end Deque
end WchIotSdk.WindowDeque
