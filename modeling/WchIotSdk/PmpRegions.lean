import WchIotSdk.PmpCsr

/-!
# Regions, contexts and the functions that write PMP entries

A region is translated into one entry (NA4, NAPOT) or into two (the base and the
top of a TOR range), either straight into the registers or into the arrays of a
context, which are copied into the registers later. Entries count upwards from
the dynamic ones, which belong to the loaded context, to the static ones.

Pointers and `unsigned long` have 32 bits here. The array of configuration words
of a context is only ever used as bytes.
-/
namespace WchIotSdk.Pmp

/-- Configuration flags. -/
def pmpR : Byte := 0x01
def pmpW : Byte := 0x02
def pmpX : Byte := 0x04
def pmpL : Byte := 0x80
def pmpTor : Byte := 0x08
def pmpNa4 : Byte := 0x10
def pmpNapot : Byte := 0x18
def pmpTypeMask : Byte := 0x18

def toPmpAddr (addr : Word) : Word := addr >>> 2
def fromPmpAddr (addr : Word) : Word := addr <<< 2
def toNapotRange (size : Word) : Word := (size - 1) >>> 1
def toPmpNapot (addr size : Word) : Word := toPmpAddr (addr ||| toNapotRange size)

/-- `enum pmp_region_mode`. -/
inductive PmpRegionMode where
  | na4
  | napot
  | tor
  deriving DecidableEq, Repr

/-- `struct riscv_pmp_region`. -/
structure RiscvPmpRegion where
  start : Word
  size : Word
  perm : Byte
  mode : PmpRegionMode
  deriving DecidableEq, Repr

/-- `struct k_pmp`; `uPmpcfg` is its `u_pmpcfg` as bytes. -/
structure KPmp where
  stackStart : Word
  stackSize : Word
  uPmpcfg : ℕ → Byte
  uPmpaddr : ℕ → Word

/-- The registers and the static variables of `core_pmp.c`. -/
structure PmpState where
  csrs : Csrs 32
  staticRegionsNum : ℕ
  mprvRegionsNum : ℕ

def uint8 (x : ℤ) : ℕ := (x % 2 ^ 8).toNat
def uint32 (x : ℤ) : ℕ := (x % 2 ^ 32).toNat

/-- `PMP_MODE_DEFAULT` and `PMP_USED_ENTRY_DEFAULT`. -/
def pmpModeDefault (cfg : PmpConfig) : PmpRegionMode := if cfg.powerOfTwo then .napot else .tor
def pmpUsedEntryDefault (cfg : PmpConfig) : ℕ := if cfg.powerOfTwo then 1 else 2

def getNumRegions (cfg : PmpConfig) : ℕ := cfg.slots

def maxDynamicRegion (cfg : PmpConfig) (st : PmpState) : ℕ :=
  uint8 ((getNumRegions cfg : ℤ) - st.staticRegionsNum - st.mprvRegionsNum - 1)

/-- The two branches on `to_csr`: where a byte and an address are put. -/
def putCsr (cfg : PmpConfig) (csrs : Csrs 32) (index : ℤ) (cfgVal : Byte) (addrVal : Word) :
    Csrs 32 := (riscvPmpSet cfg rv32 csrs (uint32 index) cfgVal addrVal).1

def putContext (pmp : KPmp) (index : ℤ) (cfgVal : Byte) (addrVal : Word) : KPmp :=
  { pmp with
    uPmpcfg := Function.update pmp.uPmpcfg index.toNat cfgVal
    uPmpaddr := Function.update pmp.uPmpaddr index.toNat addrVal }

/-- `riscv_pmp_region_translate`, with the branch on `to_csr` taken by `put`. -/
def riscvPmpRegionTranslate {δ : Type} (cfg : PmpConfig) (put : δ → ℤ → Byte → Word → δ)
    (index : ℤ) (region : RiscvPmpRegion) (d : δ) : δ × ℤ :=
  if region.start = 0 ∧ region.size = 0 then
    if index ≥ cfg.slots then (d, -28)
    else (put d index (pmpNapot ||| region.perm) 0x1FFFFFFF, index + 1)
  else if region.mode = .tor then
    if index + 1 ≥ cfg.slots then (d, -28)
    else
      let d := put d index (pmpNa4 ||| region.perm) (toPmpAddr region.start)
      (put d (index + 1) (pmpTor ||| region.perm) (toPmpAddr (region.start + region.size)),
        index + 2)
  else
    if index ≥ cfg.slots then (d, -28)
    else
      let pmpMode := if region.mode = .na4 ∨ region.size = 4 then pmpNa4 else pmpNapot
      (put d index (pmpMode ||| region.perm) (toPmpNapot region.start region.size), index + 1)

/-- An empty region, which is skipped; start = size = 0 is the whole memory. -/
def RiscvPmpRegion.Empty (region : RiscvPmpRegion) : Prop := region.size = 0 ∧ region.start ≠ 0

instance (region : RiscvPmpRegion) : Decidable region.Empty :=
  inferInstanceAs (Decidable (_ ∧ _))

def riscvPmpRegionsTranslate (cfg : PmpConfig) :
    ℤ → List RiscvPmpRegion → KPmp → KPmp × ℤ
  | regIndex, [], pmp => (pmp, regIndex)
  | regIndex, region :: regions, pmp =>
    if region.Empty then riscvPmpRegionsTranslate cfg regIndex regions pmp
    else
      let (pmp, regIndex) := riscvPmpRegionTranslate cfg putContext regIndex region pmp
      if regIndex = -28 then (pmp, -28)
      else riscvPmpRegionsTranslate cfg regIndex regions pmp

def riscvPmpRegionSet (cfg : PmpConfig) (index : ℤ) (region : RiscvPmpRegion) (csrs : Csrs 32) :
    Csrs 32 × ℤ :=
  if ¬ (region.start = 0 ∧ region.size = 0) ∧
      ¬ (region.start &&& 0x3 = 0 ∧ region.size &&& 0x3 = 0 ∧ region.size ≠ 0) then (csrs, -22)
  else riscvPmpRegionTranslate cfg (putCsr cfg) index region csrs

def riscvPmpRegionsSetFromLast (cfg : PmpConfig) :
    ℤ → List RiscvPmpRegion → Csrs 32 → Csrs 32 × ℤ
  | regIndex, [], csrs => (csrs, regIndex)
  | regIndex, region :: regions, csrs =>
    if region.Empty then riscvPmpRegionsSetFromLast cfg regIndex regions csrs
    else
      let usedEntry := if region.mode = .tor then 2 else 1
      let regIndex := regIndex - usedEntry
      riscvPmpRegionsSetFromLast cfg regIndex regions
        (riscvPmpRegionSet cfg (regIndex + 1) region csrs).1

/-- The program and its constants, between the two linker symbols. -/
def romRegion (cfg : PmpConfig) (romRegionStart romRegionEnd : Word) : RiscvPmpRegion :=
  ⟨romRegionStart, romRegionEnd - romRegionStart, pmpR ||| pmpX ||| pmpL, pmpModeDefault cfg⟩

def zRiscvConfigureStaticPmpRegions (cfg : PmpConfig) (romRegionStart romRegionEnd : Word)
    (st : PmpState) : PmpState :=
  let index : ℤ := maxDynamicRegion cfg st
  let (csrs, newIndex) := riscvPmpRegionsSetFromLast cfg index
    [romRegion cfg romRegionStart romRegionEnd] st.csrs
  { st with csrs := csrs, staticRegionsNum := uint8 (st.staticRegionsNum + (index - newIndex)) }

def zRiscvPmpClearConfig (cfg : PmpConfig) (st : PmpState) : PmpState :=
  let mprvIndex := uint8 ((getNumRegions cfg : ℤ) - st.mprvRegionsNum)
  let csrs := riscvPmpcfgSetRange rv32 st.csrs 0 (maxDynamicRegion cfg st) none
  { st with csrs := riscvPmpcfgSetRange rv32 csrs mprvIndex (getNumRegions cfg - 1) none }

/-- Zeroes the `RISCV_PMP_CFG_NUM` words of configuration bytes. -/
def zRiscvPmpInit (cfg : PmpConfig) (pmp : KPmp) : KPmp :=
  { pmp with uPmpcfg := fun i => if i / 4 < cfg.slots / 4 then 0 else pmp.uPmpcfg i }

/-- The region of the stack; its permission is to read. -/
def stackRegion (cfg : PmpConfig) (pmp : KPmp) : RiscvPmpRegion :=
  ⟨pmp.stackStart, pmp.stackSize, pmpR, pmpModeDefault cfg⟩

def zRiscvInitUserAccesses (cfg : PmpConfig) (pmp : KPmp) : KPmp :=
  (riscvPmpRegionsTranslate cfg 0 [stackRegion cfg pmp] pmp).1

/-- Copies the context into the dynamic entries. -/
def zRiscvConfigureUserAllowedStack (cfg : PmpConfig) (pmp : KPmp) (st : PmpState) : PmpState :=
  let maxIndex := maxDynamicRegion cfg st
  let st := zRiscvPmpClearConfig cfg st
  let csrs := (List.range (maxIndex + 1)).foldl
    (fun csrs i => csrWriteEnum csrs (csrPmpaddr0 + i) (pmp.uPmpaddr i)) st.csrs
  { st with csrs := riscvPmpcfgSetRange rv32 csrs 0 maxIndex (some pmp.uPmpcfg) }

/-- The search for a free entry: `n` entries are left up to the last one. -/
def nextFree (ucharPmpcfg : ℕ → Byte) : ℕ → ℕ → ℕ
  | index, 0 => index
  | index, n + 1 => if ucharPmpcfg index ≠ 0 then nextFree ucharPmpcfg (index + 1) n else index

/-- The error check compares an `unsigned char` with -28. -/
def zRiscvPmpAddDynamic (cfg : PmpConfig) (st : PmpState) (pmp : KPmp) (addr size : Word)
    (flags : Byte) : KPmp × ℤ :=
  if ¬ (addr &&& 0x3 = 0 ∧ size &&& 0x3 = 0 ∧ size ≠ 0) then (pmp, -22)
  else
    let maxIndex := maxDynamicRegion cfg st
    let first := 1 + 1 * pmpUsedEntryDefault cfg
    let index := nextFree pmp.uPmpcfg first (maxIndex + 1 - first)
    let mode := if size = 4 then .na4 else pmpModeDefault cfg
    let (pmp, result) := riscvPmpRegionTranslate cfg putContext index ⟨addr, size, flags, mode⟩ pmp
    let index := uint8 result
    (pmp, if (index : ℤ) = -28 then -28 else 0)

end WchIotSdk.Pmp
