import WchIotSdk.OwnershipLedger

/-!
# Notification buffers

`sps_notify` and `hrs_meas_notify` take a block from the BLE library, fill it and
hand it over with `GATT_Notification`, which takes ownership when it succeeds.
They are one function with the attribute and the client configuration of their
service. What the library answers is an input of each call. The ledger of blocks
is settled after every call of a run as long as no call allocates a block and then
finds the client not subscribed or the notification refused.
-/
namespace WchIotSdk.Notifications
open OwnershipLedger

/-- A block is known by its address, which is not zero. -/
abbrev Block := ℕ

def success : BitVec 8 := 0x00
def bleIncorrectMode : BitVec 8 := 0x12
def bleMemAllocError : BitVec 8 := 0x13
def bleNotConnected : BitVec 8 := 0x14
def attHandleValueNotiOpcode : BitVec 8 := 0x1b
def gapConnhandleInit : BitVec 16 := 0xFFFE
def gattClientCfgNotify : BitVec 16 := 0x0001

/-- The arrays of client configurations of the two services. -/
inductive CharCfgTable where
  | simpleProfileChar4Config
  | heartRateMeasClientCharCfg
  deriving DecidableEq, Repr

/-- `attHandleValueNoti_t`, with the contents of the block at `pValue`. -/
structure AttHandleValueNoti where
  handle : BitVec 16
  len : BitVec 16
  pValue : Block
  contents : List (BitVec 8)
  deriving DecidableEq, Repr

/-- The calls of the library, with their results. -/
inductive LibCall where
  | gattBmAlloc (conn : BitVec 16) (opcode : BitVec 8) (size : BitVec 16) (result : Option Block)
  | gattBmFree (block : Block)
  | gattServAppReadCharCfg (conn : BitVec 16) (table : CharCfgTable) (result : BitVec 16)
  | gattNotification (conn : BitVec 16) (noti : AttHandleValueNoti) (authenticated : Bool)
      (result : BitVec 8)
  deriving DecidableEq, Repr

/-- Who owns a block: one that is allocated belongs to the caller until it is
freed or handed over by a notification that succeeds. -/
def LibCall.transfer : LibCall → Option (Transfer Block)
  | .gattBmAlloc _ _ _ (some block) => some (.acquire block)
  | .gattBmFree block => some (.release block)
  | .gattNotification _ noti _ result =>
    if result = success then some (.release noti.pValue) else none
  | _ => none

/-- What the library answers in one call of a function: the block or NULL, the
configuration of the client, and the result of the notification. -/
structure Answers where
  block : Option Block
  cccCfg : BitVec 16
  status : BitVec 8
  deriving DecidableEq, Repr

/-- The library calls made and the result of the function. -/
def notify (table : CharCfgTable) (handle conn : BitVec 16) (value : List (BitVec 8))
    (lib : Answers) : List LibCall × BitVec 8 :=
  if conn = gapConnhandleInit then ([], bleNotConnected)
  else
    let len := BitVec.ofNat 16 value.length
    let alloc := .gattBmAlloc conn attHandleValueNotiOpcode len lib.block
    match lib.block with
    | none => ([alloc], bleMemAllocError)
    | some pValue =>
      let read := .gattServAppReadCharCfg conn table lib.cccCfg
      if lib.cccCfg &&& gattClientCfgNotify = 0 then ([alloc, read], bleIncorrectMode)
      else
        ([alloc, read, .gattNotification conn ⟨handle, len, pValue, value⟩ false lib.status],
          lib.status)

/-- The handles of the attributes are assigned when a service is registered. -/
def spsNotify (simpleSrv : ℕ → BitVec 16) (conn : BitVec 16) (value : List (BitVec 8))
    (lib : Answers) : List LibCall × BitVec 8 :=
  notify .simpleProfileChar4Config (simpleSrv 11) conn value lib

def hrsMeasNotify (hrsSrv : ℕ → BitVec 16) (conn : BitVec 16) (value : List (BitVec 8))
    (lib : Answers) : List LibCall × BitVec 8 :=
  notify .heartRateMeasClientCharCfg (hrsSrv 2) conn value lib

/-- A call of either function, with the answers it will get. -/
inductive NotifyCall where
  | spsNotify (conn : BitVec 16) (value : List (BitVec 8)) (lib : Answers)
  | hrsMeasNotify (conn : BitVec 16) (value : List (BitVec 8)) (lib : Answers)
  deriving DecidableEq, Repr

def NotifyCall.libCalls (simpleSrv hrsSrv : ℕ → BitVec 16) : NotifyCall → List LibCall
  | .spsNotify conn value lib => (Notifications.spsNotify simpleSrv conn value lib).1
  | .hrsMeasNotify conn value lib => (Notifications.hrsMeasNotify hrsSrv conn value lib).1

/-- The transfers of ownership of a call, in order. -/
def NotifyCall.transfers (simpleSrv hrsSrv : ℕ → BitVec 16) (call : NotifyCall) :
    List (Transfer Block) :=
  (call.libCalls simpleSrv hrsSrv).filterMap LibCall.transfer

/-- No block is allocated, or the client is subscribed and the notification
succeeds. -/
def Delivers (conn : BitVec 16) (lib : Answers) : Prop :=
  conn = gapConnhandleInit ∨ lib.block = none ∨
    lib.cccCfg &&& gattClientCfgNotify ≠ 0 ∧ lib.status = success

instance (conn : BitVec 16) (lib : Answers) : Decidable (Delivers conn lib) :=
  inferInstanceAs (Decidable (_ ∨ _ ∨ _ ∧ _))

def NotifyCall.Delivers : NotifyCall → Prop
  | .spsNotify conn _ lib => Notifications.Delivers conn lib
  | .hrsMeasNotify conn _ lib => Notifications.Delivers conn lib

/-- The ledger of one call. -/
lemma settled_notify_iff (table : CharCfgTable) (handle conn : BitVec 16)
    (value : List (BitVec 8)) (lib : Answers) :
    Settled ((notify table handle conn value lib).1.filterMap LibCall.transfer) ↔
      Delivers conn lib := by
  have hacquired (b : Block) : ¬ Settled [Transfer.acquire b] := by
    intro h
    have hempty := h.2
    simp [EventRuns.run, step] at hempty
  have hpassed (b : Block) : Settled [Transfer.acquire b, Transfer.release b] := by
    refine ⟨⟨Finset.notMem_empty b, Finset.mem_insert_self b ∅, trivial⟩, ?_⟩
    simp [EventRuns.run, step]
  unfold notify Delivers
  by_cases hconn : conn = gapConnhandleInit
  · rw [if_pos hconn]
    exact iff_of_true settled_nil (Or.inl hconn)
  · rw [if_neg hconn, or_iff_right hconn]
    cases hblock : lib.block with
    | none => exact iff_of_true settled_nil (Or.inl rfl)
    | some b =>
      rw [or_iff_right (Option.some_ne_none b)]
      by_cases hccc : lib.cccCfg &&& gattClientCfgNotify = 0
      · simp only [if_pos hccc]
        exact iff_of_false (hacquired b) (fun h => h.1 hccc)
      · simp only [if_neg hccc]
        rw [and_iff_right hccc]
        by_cases hstatus : lib.status = success
        · simp only [List.filterMap_cons, LibCall.transfer, if_pos hstatus]
          exact iff_of_true (hpassed b) hstatus
        · simp only [List.filterMap_cons, LibCall.transfer, if_neg hstatus]
          exact iff_of_false (hacquired b) hstatus

lemma NotifyCall.settled_iff (simpleSrv hrsSrv : ℕ → BitVec 16) (call : NotifyCall) :
    Settled (call.transfers simpleSrv hrsSrv) ↔ call.Delivers := by
  cases call with
  | spsNotify conn value lib => exact settled_notify_iff _ _ conn value lib
  | hrsMeasNotify conn value lib => exact settled_notify_iff _ _ conn value lib

lemma settled_calls (simpleSrv hrsSrv : ℕ → BitVec 16) {calls : List NotifyCall}
    (h : ∀ call ∈ calls, call.Delivers) :
    Settled (calls.flatMap (NotifyCall.transfers simpleSrv hrsSrv)) := by
  rw [List.flatMap_def]
  apply (settled_prefixes_iff _).mpr _ _ (List.prefix_refl _)
  intro part hpart
  obtain ⟨call, hcall, rfl⟩ := List.mem_map.mp hpart
  exact (NotifyCall.settled_iff simpleSrv hrsSrv call).mpr (h call hcall)

/-- Where every call delivers what it allocates, a block is handed over or freed as
often as it is allocated. -/
theorem notify_run_counts (simpleSrv hrsSrv : ℕ → BitVec 16) {calls : List NotifyCall}
    (h : ∀ call ∈ calls, call.Delivers) (block : Block) :
    (calls.flatMap (NotifyCall.transfers simpleSrv hrsSrv)).count (.acquire block) =
      (calls.flatMap (NotifyCall.transfers simpleSrv hrsSrv)).count (.release block) :=
  (settled_calls simpleSrv hrsSrv h).count_eq block

/-- In a run of calls, with any answers of the library, no block is left behind
after any call exactly where each of them delivers what it allocates. -/
theorem notify_run_settled_iff (simpleSrv hrsSrv : ℕ → BitVec 16) (calls : List NotifyCall) :
    (∀ past, past <+: calls → Settled (past.flatMap (NotifyCall.transfers simpleSrv hrsSrv))) ↔
      ∀ call ∈ calls, call.Delivers := by
  have hparts := settled_prefixes_iff (calls.map (NotifyCall.transfers simpleSrv hrsSrv))
  constructor
  · intro h call hcall
    rw [← NotifyCall.settled_iff simpleSrv hrsSrv]
    apply hparts.mp _ _ (List.mem_map_of_mem hcall)
    intro past hpast
    obtain ⟨past', hpast', heq⟩ := List.prefix_map_iff.mp hpast
    rw [heq, ← List.flatMap_def]
    exact h past' hpast'
  · intro h past hpast
    apply settled_calls
    intro call hcall
    exact h call (hpast.subset hcall)

/-- A client that has not subscribed: the block is kept. -/
theorem unsubscribed_block_left :
    ¬ ∀ past, past <+: [NotifyCall.spsNotify 0 [0x2A] ⟨some 0x20001000, 0, success⟩] →
      Settled (past.flatMap (NotifyCall.transfers (fun _ => 0) (fun _ => 0))) := by
  intro h
  have hleft := h _ (List.prefix_refl _)
  revert hleft
  decide +kernel

end WchIotSdk.Notifications
