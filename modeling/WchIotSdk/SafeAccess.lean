import WchIotSdk.RegisterPrograms
import WchIotSdk.RtcTimestamp

/-!
# The safe access mode

The registers of the clocks, the power supply and the RTC can be written only in safe
access mode, which is entered by writing two signatures to R8_SAFE_ACCESS_SIG one
after the other. The functions of the hardware abstraction layer that write them are
programs on the bus; the mode is a guard on it.
-/
namespace WchIotSdk.SafeAccess
open RegisterPrograms RtcTimer RtcTimestamp

/-- The registers, and SCTLR of the interrupt controller. -/
inductive Reg where
  | safeAccessSig
  | rstWdogCtrl
  | clkSysCfg
  | hfckPwrCtrl
  | slpClkOff0
  | slpClkOff1
  | slpWakeCtrl
  | slpPowerCtrl
  | powerPlan
  | batDetCtrl
  | batDetCfg
  | int32kTune
  | xt32kTune
  | ck32kConfig
  | rtcFlagCtrl
  | rtcModeCtrl
  | rtcTrig
  | pllConfig
  | xt32mTune
  | flashCtrl
  | flashCfg
  | sctlr
  deriving DecidableEq, Repr

namespace Reg

@[reducible] def width : Reg → ℕ
  | .clkSysCfg | .powerPlan | .int32kTune => 16
  | .rtcTrig | .sctlr => 32
  | _ => 8

/-- Written under safe accessing mode only (RWA, SAM). -/
def guarded : Reg → Bool
  | .safeAccessSig | .rtcFlagCtrl | .flashCtrl | .sctlr => false
  | _ => true

end Reg

abbrev Value (r : Reg) : Type := BitVec r.width

/-- RB_SAFE_ACC_MODE: locked, the first signature seen, unlocked. -/
inductive AccMode where
  | locked
  | signed
  | unlocked
  deriving DecidableEq, Repr

def safeAccessSig1 : BitVec 8 := 0x57
def safeAccessSig2 : BitVec 8 := 0xa8

def signature (mode : AccMode) (v : BitVec 8) : AccMode :=
  if v = safeAccessSig1 then .signed
  else if v = safeAccessSig2 ∧ mode = .signed then .unlocked
  else .locked

def nextMode (mode : AccMode) : (r : Reg) → Value r → AccMode
  | .safeAccessSig, v => signature mode v
  | _, _ => mode

/-- The lock while the accesses follow each other at once. The timer that closes an open
window belongs to the gaps between them. -/
def safeAccess : Guard Reg Value AccMode where
  next := nextMode
  admits mode r := !r.guarded || mode == .unlocked

/-- What a program does besides: it waits for an interrupt, or calls the routine of the
ROM that resets the flash controller. -/
inductive Action where
  | wfi
  | flashRomSwReset
  deriving DecidableEq, Repr

abbrev Hal (α : Type) : Type := Prog Reg Value Action α

def sysSafeAccessEnable : Hal Unit := do
  store .safeAccessSig safeAccessSig1
  store .safeAccessSig safeAccessSig2

def sysSafeAccessDisable : Hal Unit := store .safeAccessSig 0

/-- Most registers are written alone in a window of their own. -/
def storeWindow (r : Reg) (v : Value r) : Hal Unit := do
  sysSafeAccessEnable
  store r v
  sysSafeAccessDisable

def updateWindow (r : Reg) (f : Value r → Value r) : Hal Unit := do
  sysSafeAccessEnable
  update r f
  sysSafeAccessDisable

/-- From every mode the program writes guarded registers only in safe access mode, and
it leaves that mode. -/
def Windowed {α : Type} (p : Hal α) : Prop :=
  ∀ mode, Admitted safeAccess p mode fun _ mode' => mode' = .locked

/-- The program writes no guarded register and does not touch the mode. -/
def Neutral {α : Type} (p : Hal α) : Prop :=
  ∀ mode, Admitted safeAccess p mode fun _ mode' => mode' = mode

/-- No write is lost, and the mode at the end is locked unless the program does not
touch it. -/
def Tidy {α : Type} (p : Hal α) : Prop :=
  ∀ mode, Admitted safeAccess p mode fun _ mode' => mode' = .locked ∨ mode' = mode

section Windows

variable {α β : Type}

@[simp] theorem admits_safeAccess (mode : AccMode) (r : Reg) :
    safeAccess.admits mode r = true ↔ r.guarded = false ∨ mode = .unlocked := by
  cases mode <;> simp [safeAccess]

/-- Only the signatures move the mode. -/
@[simp] theorem next_safeAccess (mode : AccMode) {r : Reg} (hr : r ≠ .safeAccessSig)
    (v : Value r) : safeAccess.next mode r v = mode := by
  cases r <;> first | exact absurd rfl hr | rfl

@[simp] theorem admitted_sysSafeAccessEnable (mode : AccMode) (post : Unit → AccMode → Prop) :
    Admitted safeAccess sysSafeAccessEnable mode post ↔ post () .unlocked :=
  ⟨fun h => h.2.2, fun h => ⟨rfl, rfl, h⟩⟩

@[simp] theorem admitted_sysSafeAccessDisable (mode : AccMode) (post : Unit → AccMode → Prop) :
    Admitted safeAccess sysSafeAccessDisable mode post ↔ post () .locked :=
  ⟨fun h => h.2, fun h => ⟨rfl, h⟩⟩

theorem Windowed.tidy {p : Hal α} (hp : Windowed p) : Tidy p := fun mode =>
  (hp mode).mono fun _ _ => Or.inl

theorem Neutral.tidy {p : Hal α} (hp : Neutral p) : Tidy p := fun mode =>
  (hp mode).mono fun _ _ => Or.inr

theorem Tidy.bind_windowed {p : Hal α} {f : α → Hal β} (hp : Tidy p)
    (hf : ∀ a, Windowed (f a)) : Windowed (p >>= f) := fun mode => by
  rw [admitted_bind]
  exact (hp mode).mono fun a mode' _ => hf a mode'

theorem Tidy.locked {p : Hal α} (hp : Tidy p) :
    Admitted safeAccess p .locked fun _ mode' => mode' = .locked :=
  (hp .locked).mono fun _ _ => or_self_iff.mp

theorem Windowed.bind_tidy {p : Hal α} {f : α → Hal β} (hp : Windowed p)
    (hf : ∀ a, Tidy (f a)) : Windowed (p >>= f) := fun mode => by
  rw [admitted_bind]
  refine (hp mode).mono fun a mode' hlocked => ?_
  rw [hlocked]
  exact (hf a).locked

theorem Tidy.bind {p : Hal α} {f : α → Hal β} (hp : Tidy p) (hf : ∀ a, Tidy (f a)) :
    Tidy (p >>= f) := fun mode => by
  rw [admitted_bind]
  refine (hp mode).mono fun a mode' hmode' => (hf a mode').mono fun _ mode'' hmode'' => ?_
  rcases hmode'' with hlocked | rfl
  · exact Or.inl hlocked
  · exact hmode'

theorem Tidy.ite {c : Prop} [Decidable c] {p q : Hal α} (hp : Tidy p) (hq : Tidy q) :
    Tidy (if c then p else q) := by
  split
  · exact hp
  · exact hq

theorem neutral_store {r : Reg} (hg : r.guarded = false) (hr : r ≠ .safeAccessSig)
    (v : Value r) : Neutral (store r v) := fun mode =>
  ⟨(admits_safeAccess mode r).mpr (Or.inl hg), next_safeAccess mode hr v⟩

theorem windowed_storeWindow {r : Reg} (v : Value r) : Windowed (storeWindow r v) := by
  intro mode
  simp [storeWindow]

theorem windowed_updateWindow {r : Reg} (f : Value r → Value r) :
    Windowed (updateWindow r f) := by
  intro mode
  simp [updateWindow, update]

theorem Windowed.ite {c : Prop} [Decidable c] {p q : Hal α} (hp : Windowed p)
    (hq : Windowed q) : Windowed (if c then p else q) := by
  split
  · exact hp
  · exact hq

end Windows

end WchIotSdk.SafeAccess
