import WchIotSdk.EventRuns

/-!
# Programs on the registers of a device

A program accesses registers one at a time and may act on the device in other ways;
what it does next can depend on every value that it has read. A bus gives the
accesses a meaning. A guard is an automaton that watches the writes and lets only
some of them reach the registers; a program whose writes it all admits runs as if it
were not there. In the gaps between the accesses something else may change the state;
a program that cannot notice it runs as if undisturbed.
-/
namespace WchIotSdk.RegisterPrograms
open EventRuns

variable {ρ : Type} {val : ρ → Type} {ω α β σ τ φ : Type}

inductive Prog (ρ : Type) (val : ρ → Type) (ω α : Type) where
  | done (a : α)
  | load (r : ρ) (next : val r → Prog ρ val ω α)
  | store (r : ρ) (v : val r) (next : Prog ρ val ω α)
  | act (o : ω) (next : Prog ρ val ω α)

namespace Prog

def bind : Prog ρ val ω α → (α → Prog ρ val ω β) → Prog ρ val ω β
  | .done a, f => f a
  | .load r next, f => .load r fun v => (next v).bind f
  | .store r v next, f => .store r v (next.bind f)
  | .act o next, f => .act o (next.bind f)

instance : Monad (Prog ρ val ω) where
  pure := .done
  bind := .bind

end Prog

/-- One read, one write, one action. -/
def load (r : ρ) : Prog ρ val ω (val r) := .load r .done
def store (r : ρ) (v : val r) : Prog ρ val ω Unit := .store r v (.done ())
def act (o : ω) : Prog ρ val ω Unit := .act o (.done ())

/-- A read and a write of the same register. -/
def update (r : ρ) (f : val r → val r) : Prog ρ val ω Unit := do
  let v ← load r
  store r (f v)

/-- What the accesses of a program do to a state. -/
structure Bus (ρ : Type) (val : ρ → Type) (ω σ : Type) where
  read : σ → (r : ρ) → val r
  write : σ → (r : ρ) → val r → σ
  act : σ → ω → σ

/-- The result and the state at the end. -/
def exec (bus : Bus ρ val ω σ) : Prog ρ val ω α → σ → α × σ
  | .done a, s => (a, s)
  | .load r next, s => exec bus (next (bus.read s r)) s
  | .store r v next, s => exec bus next (bus.write s r v)
  | .act o next, s => exec bus next (bus.act s o)

section Exec

variable (bus : Bus ρ val ω σ)

@[simp] theorem exec_pure (a : α) (s : σ) :
    exec bus (pure a : Prog ρ val ω α) s = (a, s) := rfl

@[simp] theorem exec_load (r : ρ) (s : σ) :
    exec bus (load r : Prog ρ val ω _) s = (bus.read s r, s) := rfl

@[simp] theorem exec_store (r : ρ) (v : val r) (s : σ) :
    exec bus (store r v : Prog ρ val ω _) s = ((), bus.write s r v) := rfl

@[simp] theorem exec_act (o : ω) (s : σ) :
    exec bus (act o : Prog ρ val ω _) s = ((), bus.act s o) := rfl

@[simp] theorem exec_update (r : ρ) (f : val r → val r) (s : σ) :
    exec bus (update r f : Prog ρ val ω _) s = ((), bus.write s r (f (bus.read s r))) := rfl

/-- A sequence runs its parts one after the other. -/
@[simp] theorem exec_bind (p : Prog ρ val ω α) (f : α → Prog ρ val ω β) (s : σ) :
    exec bus (p >>= f) s = exec bus (f (exec bus p s).1) (exec bus p s).2 := by
  change exec bus (p.bind f) s = _
  induction p generalizing s with
  | done a => rfl
  | load r next ih => exact ih (bus.read s r) s
  | store r v next ih => exact ih (bus.write s r v)
  | act o next ih => exact ih (bus.act s o)

end Exec

/-- An automaton over the writes, and the registers that it lets be written. -/
structure Guard (ρ : Type) (val : ρ → Type) (φ : Type) where
  next : φ → (r : ρ) → val r → φ
  admits : φ → ρ → Bool

/-- The bus behind a guard: a write that is not admitted is lost. -/
def Bus.guarded (bus : Bus ρ val ω σ) (guard : Guard ρ val φ) : Bus ρ val ω (σ × φ) where
  read s r := bus.read s.1 r
  write s r v :=
    (if guard.admits s.2 r then bus.write s.1 r v else s.1, guard.next s.2 r v)
  act s o := (bus.act s.1 o, s.2)

/-- From the mode `m` every write is admitted, whatever is read, and the result and
the mode at the end meet `post`. -/
def Admitted (guard : Guard ρ val φ) : Prog ρ val ω α → φ → (α → φ → Prop) → Prop
  | .done a, m, post => post a m
  | .load _ next, m, post => ∀ v, Admitted guard (next v) m post
  | .store r v next, m, post => guard.admits m r ∧ Admitted guard next (guard.next m r v) post
  | .act _ next, m, post => Admitted guard next m post

section Guarded

variable {guard : Guard ρ val φ}

@[simp] theorem admitted_pure (a : α) (m : φ) (post : α → φ → Prop) :
    Admitted guard (pure a : Prog ρ val ω α) m post ↔ post a m := Iff.rfl

@[simp] theorem admitted_load (r : ρ) (m : φ) (post : val r → φ → Prop) :
    Admitted guard (load r : Prog ρ val ω _) m post ↔ ∀ v, post v m := Iff.rfl

@[simp] theorem admitted_store (r : ρ) (v : val r) (m : φ) (post : Unit → φ → Prop) :
    Admitted guard (store r v : Prog ρ val ω _) m post ↔
      guard.admits m r ∧ post () (guard.next m r v) := Iff.rfl

@[simp] theorem admitted_act (o : ω) (m : φ) (post : Unit → φ → Prop) :
    Admitted guard (act o : Prog ρ val ω _) m post ↔ post () m := Iff.rfl

@[simp] theorem admitted_bind (p : Prog ρ val ω α) (f : α → Prog ρ val ω β) (m : φ)
    (post : β → φ → Prop) :
    Admitted guard (p >>= f) m post ↔
      Admitted guard p m fun a m' => Admitted guard (f a) m' post := by
  change Admitted guard (p.bind f) m post ↔ _
  induction p generalizing m with
  | done a => exact Iff.rfl
  | load r next ih => exact forall_congr' fun v => ih v m
  | store r v next ih => exact and_congr_right fun _ => ih (guard.next m r v)
  | act o next ih => exact ih m

theorem Admitted.mono {p : Prog ρ val ω α} {m : φ} {post post' : α → φ → Prop}
    (h : Admitted guard p m post) (hpost : ∀ a m', post a m' → post' a m') :
    Admitted guard p m post' := by
  induction p generalizing m with
  | done a => exact hpost a m h
  | load r next ih => exact fun v => ih v (h v)
  | store r v next ih => exact ⟨h.1, ih h.2⟩
  | act o next ih => exact ih (m := m) h

theorem Bus.guarded_write (bus : Bus ρ val ω σ) {m : φ} {r : ρ} (h : guard.admits m r)
    (s : σ) (v : val r) :
    (bus.guarded guard).write (s, m) r v = (bus.write s r v, guard.next m r v) := by
  simp [Bus.guarded, h]

/-- Behind a guard that admits all its writes, a program runs as on the bare bus. -/
theorem exec_guarded (bus : Bus ρ val ω σ) {p : Prog ρ val ω α} {m : φ}
    {post : α → φ → Prop} (h : Admitted guard p m post) (s : σ) :
    ∃ m', exec (bus.guarded guard) p (s, m) = ((exec bus p s).1, (exec bus p s).2, m') ∧
      post (exec bus p s).1 m' := by
  induction p generalizing s m with
  | done a => exact ⟨m, rfl, h⟩
  | load r next ih => exact ih (bus.read s r) (h _) s
  | store r v next ih =>
    obtain ⟨m', hexec, hpost⟩ := ih h.2 (bus.write s r v)
    exact ⟨m', by rw [exec, bus.guarded_write h.1, hexec, exec], hpost⟩
  | act o next ih => exact ih (m := m) h (bus.act s o)

end Guarded

/-- The property holds before, between and after the accesses. -/
def Always (bus : Bus ρ val ω σ) (inv : σ → Prop) : Prog ρ val ω α → σ → Prop
  | .done _, s => inv s
  | .load r next, s => inv s ∧ Always bus inv (next (bus.read s r)) s
  | .store r v next, s => inv s ∧ Always bus inv next (bus.write s r v)
  | .act o next, s => inv s ∧ Always bus inv next (bus.act s o)

/-- The program writes the registers of one set and takes the actions of another. -/
def Confined (writes : ρ → Bool) (acts : ω → Bool) : Prog ρ val ω α → Prop
  | .done _ => True
  | .load _ next => ∀ v, Confined writes acts (next v)
  | .store r _ next => writes r ∧ Confined writes acts next
  | .act o next => acts o ∧ Confined writes acts next

section Confined

variable {writes : ρ → Bool} {acts : ω → Bool}

theorem confined_pure (a : α) : Confined writes acts (pure a : Prog ρ val ω α) := trivial

theorem Confined.bind {p : Prog ρ val ω α} {f : α → Prog ρ val ω β}
    (hp : Confined writes acts p) (hf : ∀ a, Confined writes acts (f a)) :
    Confined writes acts (p >>= f) := by
  change Confined writes acts (p.bind f)
  induction p with
  | done a => exact hf a
  | load r next ih => exact fun v => ih v (hp v)
  | store r v next ih => exact ⟨hp.1, ih hp.2⟩
  | act o next ih => exact ⟨hp.1, ih hp.2⟩

theorem Confined.mono {writes' : ρ → Bool} {acts' : ω → Bool} {p : Prog ρ val ω α}
    (hp : Confined writes acts p) (hwrites : ∀ r, writes r → writes' r)
    (hacts : ∀ o, acts o → acts' o) : Confined writes' acts' p := by
  induction p with
  | done a => trivial
  | load r next ih => exact fun v => ih v (hp v)
  | store r v next ih => exact ⟨hwrites r hp.1, ih hp.2⟩
  | act o next ih => exact ⟨hacts o hp.1, ih hp.2⟩

theorem Confined.ite {c : Prop} [Decidable c] {p q : Prog ρ val ω α}
    (hp : Confined writes acts p) (hq : Confined writes acts q) :
    Confined writes acts (if c then p else q) := by
  split
  · exact hp
  · exact hq

end Confined

section Always

variable {bus : Bus ρ val ω σ} {inv : σ → Prop}

theorem Always.last {p : Prog ρ val ω α} {s : σ} (h : Always bus inv p s) :
    inv (exec bus p s).2 := by
  induction p generalizing s with
  | done a => exact h
  | load r next ih => exact ih _ h.2
  | store r v next ih => exact ih h.2
  | act o next ih => exact ih h.2

theorem Always.bind {p : Prog ρ val ω α} {f : α → Prog ρ val ω β} {s : σ}
    (hp : Always bus inv p s) (hf : Always bus inv (f (exec bus p s).1) (exec bus p s).2) :
    Always bus inv (p >>= f) s := by
  change Always bus inv (p.bind f) s
  induction p generalizing s with
  | done a => exact hf
  | load r next ih => exact ⟨hp.1, ih _ hp.2 hf⟩
  | store r v next ih => exact ⟨hp.1, ih hp.2 hf⟩
  | act o next ih => exact ⟨hp.1, ih hp.2 hf⟩

theorem Always.guarded {guard : Guard ρ val φ} {p : Prog ρ val ω α} {m : φ}
    {post : α → φ → Prop} (hp : Admitted guard p m post) {s : σ} (h : Always bus inv p s) :
    Always (bus.guarded guard) (fun t => inv t.1) p (s, m) := by
  induction p generalizing s m with
  | done a => exact h
  | load r next ih => exact ⟨h.1, ih _ (hp _) h.2⟩
  | store r v next ih =>
    refine ⟨h.1, ?_⟩
    rw [bus.guarded_write hp.1]
    exact ih hp.2 h.2
  | act o next ih => exact ⟨h.1, ih (m := m) hp h.2⟩

/-- What the writes and the actions of the program keep, holds all along. -/
theorem always_of_confined {writes : ρ → Bool} {acts : ω → Bool}
    (hwrite : ∀ s r v, writes r → inv s → inv (bus.write s r v))
    (hact : ∀ s o, acts o → inv s → inv (bus.act s o)) {p : Prog ρ val ω α}
    (hp : Confined writes acts p) {s : σ} (hs : inv s) : Always bus inv p s := by
  induction p generalizing s with
  | done a => exact hs
  | load r next ih => exact ⟨hs, ih _ (hp _) hs⟩
  | store r v next ih => exact ⟨hs, ih hp.2 (hwrite s r v hp.1 hs)⟩
  | act o next ih => exact ⟨hs, ih hp.2 (hact s o hp.1 hs)⟩

end Always

/-- A run with something else in its gaps: what `gaps k` lists happens right before the
access number `k`, or at the end. -/
def interleaved {ι : Type} (bus : Bus ρ val ω σ) (handle : σ → ι → σ) :
    Prog ρ val ω α → (ℕ → List ι) → σ → α × σ
  | .done a, gaps, s => (a, run handle s (gaps 0))
  | .load r next, gaps, s =>
    let t := run handle s (gaps 0)
    interleaved bus handle (next (bus.read t r)) (fun k => gaps (k + 1)) t
  | .store r v next, gaps, s =>
    interleaved bus handle next (fun k => gaps (k + 1)) (bus.write (run handle s (gaps 0)) r v)
  | .act o next, gaps, s =>
    interleaved bus handle next (fun k => gaps (k + 1)) (bus.act (run handle s (gaps 0)) o)

/-- All accesses of the program are to registers of the set. -/
def Within (owned : Set ρ) : Prog ρ val ω α → Prop
  | .done _ => True
  | .load r next => r ∈ owned ∧ ∀ v, Within owned (next v)
  | .store r _ next => r ∈ owned ∧ Within owned next
  | .act _ next => Within owned next

section Within

variable {owned : Set ρ}

@[simp] theorem within_pure (a : α) : Within owned (pure a : Prog ρ val ω α) := trivial

@[simp] theorem within_load (r : ρ) :
    Within owned (load r : Prog ρ val ω _) ↔ r ∈ owned := by
  simp [load, Within]

@[simp] theorem within_store (r : ρ) (v : val r) :
    Within owned (store r v : Prog ρ val ω _) ↔ r ∈ owned := by
  simp [store, Within]

@[simp] theorem within_act (o : ω) : Within owned (act o : Prog ρ val ω _) := trivial

theorem Within.bind {p : Prog ρ val ω α} {f : α → Prog ρ val ω β} (hp : Within owned p)
    (hf : ∀ a, Within owned (f a)) : Within owned (p >>= f) := by
  change Within owned (p.bind f)
  induction p with
  | done a => exact hf a
  | load r next ih => exact ⟨hp.1, fun v => ih v (hp.2 v)⟩
  | store r v next ih => exact ⟨hp.1, ih hp.2⟩
  | act o next ih => exact ih hp

end Within

/-- A relation between the states of an undisturbed and an interleaved run that the
accesses to the registers of the set keep. -/
structure Bisimilar (bus : Bus ρ val ω σ) (owned : Set ρ) (same : σ → σ → Prop) : Prop where
  read : ∀ {s t r}, same s t → r ∈ owned → bus.read s r = bus.read t r
  write : ∀ {s t r v}, same s t → r ∈ owned → same (bus.write s r v) (bus.write t r v)
  act : ∀ {s t o}, same s t → same (bus.act s o) (bus.act t o)

/-- The property holds, at each gap, of what it lists and the state that an undisturbed
run has there. -/
def AtGaps {ι : Type} (bus : Bus ρ val ω σ) (holds : List ι → σ → Prop) :
    Prog ρ val ω α → (ℕ → List ι) → σ → Prop
  | .done _, gaps, s => holds (gaps 0) s
  | .load r next, gaps, s =>
    holds (gaps 0) s ∧ AtGaps bus holds (next (bus.read s r)) (fun k => gaps (k + 1)) s
  | .store r v next, gaps, s =>
    holds (gaps 0) s ∧ AtGaps bus holds next (fun k => gaps (k + 1)) (bus.write s r v)
  | .act o next, gaps, s =>
    holds (gaps 0) s ∧ AtGaps bus holds next (fun k => gaps (k + 1)) (bus.act s o)

theorem AtGaps.imp {ι : Type} {bus : Bus ρ val ω σ} {holds holds' : List ι → σ → Prop}
    {p : Prog ρ val ω α} {gaps : ℕ → List ι} {s : σ} (h : AtGaps bus holds p gaps s)
    (himp : ∀ k s, holds (gaps k) s → holds' (gaps k) s) : AtGaps bus holds' p gaps s := by
  induction p generalizing s gaps with
  | done a => exact himp 0 s h
  | load r next ih => exact ⟨himp 0 s h.1, ih _ h.2 fun k => himp (k + 1)⟩
  | store r v next ih => exact ⟨himp 0 s h.1, ih h.2 fun k => himp (k + 1)⟩
  | act o next ih => exact ⟨himp 0 s h.1, ih h.2 fun k => himp (k + 1)⟩

/-- What the accesses of a program cannot notice in its gaps changes neither its
result nor what the relation says of its final state. -/
theorem exec_interleaved {ι : Type} {bus : Bus ρ val ω σ} {handle : σ → ι → σ} {owned : Set ρ}
    {same : σ → σ → Prop} (h : Bisimilar bus owned same) {p : Prog ρ val ω α}
    (hp : Within owned p) {gaps : ℕ → List ι} {s t : σ}
    (hgaps : AtGaps bus (fun is s => ∀ t, same s t → same s (run handle t is)) p gaps s)
    (hs : same s t) :
    (exec bus p s).1 = (interleaved bus handle p gaps t).1 ∧
      same (exec bus p s).2 (interleaved bus handle p gaps t).2 := by
  induction p generalizing s t gaps with
  | done a => exact ⟨rfl, hgaps t hs⟩
  | load r next ih =>
    obtain ⟨hgap, hrest⟩ := hgaps
    have hread := h.read (hgap t hs) hp.1
    rw [exec, interleaved, hread]
    rw [hread] at hrest
    exact ih _ (hp.2 _) hrest (hgap t hs)
  | store r v next ih => exact ih hp.2 hgaps.2 (h.write (hgaps.1 t hs) hp.1)
  | act o next ih => exact ih hp hgaps.2 (h.act (hgaps.1 t hs))

end WchIotSdk.RegisterPrograms
