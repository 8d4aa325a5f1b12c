import CMeshApi.Wpc.Management

/-!
# What the calls leave alone

A call acts on the world by asking the environment and by storing what it read. A
relation that holds along each of these holds along the call; so what a call does not
touch is told once, for every relation.
-/

namespace CMeshApi.Wpc

open Programs

variable {γ ν α : Type}

/-- A relation between worlds that holds along a change of the node. -/
def Along (r : World γ ν → World γ ν → Prop) (f : ν → ν) : Prop :=
  ∀ w, r w { w with node := f w.node }

/-- A relation that holds along all that only asks: every read of the node, the clocks, the
allocator and `rand`. -/
structure Asks (env : Environment ν) (r : World γ ν → World γ ν → Prop) : Prop where
  composes : Composes r
  attributeRead : ∀ sap id, Along r fun n => (env.attributeRead sap id n).2
  appConfigDataRead : Along r fun n => (env.appConfigDataRead n).2
  scratchpadStatus : Along r fun n => (env.scratchpadStatus n).2
  scratchpadTargetRead : Along r fun n => (env.scratchpadTargetRead n).2
  timestampMsMonotonic : Along r fun n => (env.timestampMsMonotonic n).2
  timestampMsEpoch : Along r fun n => (env.timestampMsEpoch n).2
  malloc : Along r fun n => (env.malloc n).2
  rand : Along r fun n => (env.rand n).2

/-- What of the node no asking changes. -/
structure Keeps (env : Environment ν) (x : ν → α) : Prop where
  attributeRead : ∀ sap id n, x (env.attributeRead sap id n).2 = x n
  appConfigDataRead : ∀ n, x (env.appConfigDataRead n).2 = x n
  scratchpadStatus : ∀ n, x (env.scratchpadStatus n).2 = x n
  scratchpadTargetRead : ∀ n, x (env.scratchpadTargetRead n).2 = x n
  timestampMsMonotonic : ∀ n, x (env.timestampMsMonotonic n).2 = x n
  timestampMsEpoch : ∀ n, x (env.timestampMsEpoch n).2 = x n
  malloc : ∀ n, x (env.malloc n).2 = x n
  rand : ∀ n, x (env.rand n).2 = x n

/-- A relation holds along all asking if it holds along a change of the node that keeps this. -/
theorem Keeps.asks {env : Environment ν} {x : ν → α} (h : Keeps env x)
    {r : World γ ν → World γ ν → Prop} (hr : Composes r)
    (hAlong : ∀ w n, x n = x w.node → r w { w with node := n }) : Asks env r where
  composes := hr
  attributeRead _ _ w := hAlong w _ (h.attributeRead _ _ w.node)
  appConfigDataRead w := hAlong w _ (h.appConfigDataRead w.node)
  scratchpadStatus w := hAlong w _ (h.scratchpadStatus w.node)
  scratchpadTargetRead w := hAlong w _ (h.scratchpadTargetRead w.node)
  timestampMsMonotonic w := hAlong w _ (h.timestampMsMonotonic w.node)
  timestampMsEpoch w := hAlong w _ (h.timestampMsEpoch w.node)
  malloc w := hAlong w _ (h.malloc w.node)
  rand w := hAlong w _ (h.rand w.node)

theorem keeps_unit (env : Environment ν) : Keeps env fun _ => () where
  attributeRead _ _ _ := rfl
  appConfigDataRead _ := rfl
  scratchpadStatus _ := rfl
  scratchpadTargetRead _ := rfl
  timestampMsMonotonic _ := rfl
  timestampMsEpoch _ := rfl
  malloc _ := rfl
  rand _ := rfl

/-- The relation holds along the request as well. -/
def Sends (env : Environment ν) (r : World γ ν → World γ ν → Prop) (q : Request) : Prop :=
  Along r fun n => (env.request q n).2

section Moves

variable {env : Environment ν} {r : World γ ν → World γ ν → Prop} (hr : Composes r)

include hr

theorem moves_attributeReadRequest {sap : Sap} {id : UInt16}
    (hRead : Along r fun n => (env.attributeRead sap id n).2) (length : Nat) :
    Moves r (attributeReadRequest env sap id length) := by
  apply Moves.bind hr
  · exact hRead
  · intro answer
    exact Moves.ite (.pure hr _) (.pure hr _)

theorem moves_readAttribute {sap : Sap} {id : UInt16}
    (hRead : Along r fun n => (env.attributeRead sap id n).2) (length : Nat)
    (decode : List UInt8 → α) : Moves r (readAttribute env sap id length decode) := by
  apply Moves.bind hr
  · exact moves_attributeReadRequest hr hRead length
  · rintro ⟨res, value⟩
    dsimp only
    split
    · exact .pure hr _
    · exact .pure hr _

theorem moves_isKeySet {id : UInt16} (hRead : Along r fun n => (env.attributeRead .csap id n).2) :
    Moves r (isKeySet env id) := by
  apply Moves.bind hr
  · exact moves_attributeReadRequest hr hRead 16
  · intro answer
    exact Moves.ite (.pure hr _) (.pure hr _)

theorem moves_writeAttribute {sap : Sap} {id : UInt16} {value : List UInt8}
    (hWrite : Sends env r (attributeWrite sap id value)) :
    Moves r (writeAttribute env sap id value) := by
  apply Moves.bind hr
  · exact Moves.ite (.pure hr _) hWrite
  · intro res
    exact .pure hr _

theorem moves_wpcSetNetworkAddress {add : UInt32}
    (hWrite : Sends env r (attributeWrite .csap cNetworkAddressId ((uint32EncodeLe add).take 3))) :
    Moves r (wpcSetNetworkAddress env add) := Moves.ite (.pure hr _) (moves_writeAttribute hr hWrite)

theorem moves_wpcSetAppConfigData {seq : UInt8} {interval : UInt16} {config : List UInt8}
    (hSize : Along r fun n => (env.attributeRead .csap cAppConfigDataSizeId n).2)
    (hWrite : Sends env r (appConfigDataWrite seq interval config)) :
    Moves r (wpcSetAppConfigData env seq interval config) := by
  apply Moves.bind hr
  · exact moves_readAttribute hr hSize _ _
  · intro result
    split
    · exact .pure hr _
    · apply Moves.ite (.pure hr _)
      apply Moves.bind hr
      · exact hWrite
      · intro res
        exact .pure hr _

section Stops

variable (hClock : Along r fun n => (env.timestampMsMonotonic n).2)
  (hStatus : Along r fun n => (env.attributeRead .msap msapStackStatus n).2)

include hClock

theorem moves_waitUntil (endWait n : Nat) : Moves r (waitUntil env endWait n) := by
  induction n with
  | zero => exact .unfinished hr
  | succ n ih =>
    apply Moves.bind hr
    · exact hClock
    · intro now
      exact Moves.ite ih (.pure hr _)

include hStatus

theorem moves_pollStackStatus (timeout n : Nat) : Moves r (pollStackStatus env timeout n) := by
  induction n with
  | zero => exact .unfinished hr
  | succ n ih =>
    apply Moves.bind hr
    · exact hClock
    · intro now
      apply Moves.ite _ (.pure hr _)
      apply Moves.bind hr
      · exact moves_readAttribute hr hStatus _ _
      · intro result
        split
        · exact .pure hr _
        · exact ih

theorem moves_getStackStatus (timeoutS : UInt16) : Moves r (getStackStatus env timeoutS) := by
  apply Moves.bind hr
  · exact hClock
  · intro now
    exact moves_pollStackStatus hr hClock hStatus _ _

/-- What a stop does after its request was answered. -/
theorem moves_stopped (res : Int) : Moves r (do
    if res = 1 then return AppRes.stackAlreadyStopped
    else if res = 128 then return .accessDenied
    else
      let now ← ask env.timestampMsMonotonic
      waitUntil env (now + 500) env.rounds
      let timeoutS ← Program.read fun w : World γ ν => w.statics.timeoutAfterStopTaskS
      if ← getStackStatus env timeoutS.toUInt16 then return .ok
      else return .internalError : Call γ ν AppRes) := by
  apply Moves.ite (.pure hr _)
  apply Moves.ite (.pure hr _)
  apply Moves.bind hr
  · exact hClock
  · intro now
    apply Moves.bind hr
    · exact moves_waitUntil hr hClock _ _
    · intro _
      apply Moves.bind hr
      · exact .read hr _
      · intro timeoutS
        apply Moves.bind hr
        · exact moves_getStackStatus hr hClock hStatus _
        · intro status
          exact Moves.ite (.pure hr _) (.pure hr _)

theorem moves_wpcStopStack (hStop : Sends env r stackStop) : Moves r (wpcStopStack env) := by
  apply Moves.bind hr
  · exact hStop
  · exact moves_stopped hr hClock hStatus

end Stops

end Moves

namespace Asks

variable {env : Environment ν} {r : World γ ν → World γ ν → Prop} (h : Asks env r)

include h

theorem readAttribute (sap : Sap) (id : UInt16) (length : Nat) (decode : List UInt8 → α) :
    Moves r (readAttribute env sap id length decode) :=
  moves_readAttribute h.composes (h.attributeRead sap id) length decode

theorem isKeySet (id : UInt16) : Moves r (isKeySet env id) :=
  moves_isKeySet h.composes (h.attributeRead .csap id)

theorem firmwareVersion (ids version : List UInt16) : Moves r (firmwareVersion env ids version) := by
  induction ids generalizing version with
  | nil => exact .pure h.composes _
  | cons id ids ih =>
    apply Moves.bind h.composes
    · exact h.readAttribute _ _ _ _
    · intro result
      split
      · exact ih _
      · exact .pure h.composes _

theorem wpcGetAppConfigData (size : Nat) : Moves r (wpcGetAppConfigData env size) := by
  apply Moves.bind h.composes
  · exact h.readAttribute _ _ _ _
  · intro result
    split
    · exact .pure h.composes _
    · apply Moves.ite (.pure h.composes _)
      apply Moves.bind h.composes
      · exact h.appConfigDataRead
      · rintro ⟨res, conf⟩
        dsimp only
        split
        · exact .pure h.composes _
        · exact .pure h.composes _

theorem wpcGetLocalScratchpadStatus : Moves r (wpcGetLocalScratchpadStatus env) := by
  apply Moves.bind h.composes
  · exact h.scratchpadStatus
  · intro answer
    exact Moves.ite (.pure h.composes _) (.pure h.composes _)

theorem wpcReadTargetScratchpad : Moves r (wpcReadTargetScratchpad env) := by
  apply Moves.bind h.composes
  · exact h.scratchpadTargetRead
  · intro answer
    exact Moves.ite (.pure h.composes _) (.pure h.composes _)

theorem getStackStatus (timeoutS : UInt16) : Moves r (getStackStatus env timeoutS) :=
  moves_getStackStatus h.composes h.timestampMsMonotonic (h.attributeRead _ _) timeoutS

theorem wpcStopStack (hStop : Sends env r stackStop) : Moves r (wpcStopStack env) :=
  moves_wpcStopStack h.composes h.timestampMsMonotonic (h.attributeRead _ _) hStop

theorem returns_wpcStopStack {w t : World γ ν} {res : AppRes} (hStop : Returns (Wpc.wpcStopStack env) w res t) :
    r { w with node := (env.request stackStop w.node).2 } t := by
  obtain ⟨answer, u, hRequest, hRest⟩ := returns_bind.mp hStop
  obtain ⟨-, rfl⟩ := returns_ask.mp hRequest
  exact (moves_stopped h.composes h.timestampMsMonotonic (h.attributeRead _ _) answer).returns hRest

/-- A start asks for no more than its request and what its callback asks for. -/
theorem returns_wpcStartStack {stackStatusCb : Option (UInt8 → Call γ ν Unit)}
    (hCb : ∀ cb ∈ stackStatusCb, Moves r (cb 0)) {w t : World γ ν} {res : AppRes}
    (hStart : Returns (Wpc.wpcStartStack env stackStatusCb) w res t) :
    r { w with node := (env.request (stackStart 0) w.node).2 } t := by
  obtain ⟨answer, u, hRequest, hRest⟩ := returns_bind.mp hStart
  obtain ⟨result, v, hAsked, hCalled⟩ := returns_bind.mp hRequest
  obtain ⟨-, rfl⟩ := returns_ask.mp hAsked
  refine h.composes.trans (Moves.returns ?_ hCalled) (Moves.returns ?_ hRest)
  · cases stackStatusCb with
    | none => exact .pure h.composes _
    | some cb =>
      exact Moves.ite (Moves.bind h.composes (hCb cb rfl) fun _ => .pure h.composes _)
        (.pure h.composes _)
  · split
    · exact .pure h.composes _
    · apply Moves.bind h.composes
      · exact h.getStackStatus _
      · intro status
        exact Moves.ite (.pure h.composes _) (.pure h.composes _)

theorem wpcStartStack (hStart : Sends env r (stackStart 0))
    {stackStatusCb : Option (UInt8 → Call γ ν Unit)}
    (hCb : ∀ cb ∈ stackStatusCb, Moves r (cb 0)) : Moves r (wpcStartStack env stackStatusCb) := by
  apply Moves.bind h.composes
  · apply Moves.bind h.composes
    · exact hStart
    · intro res
      cases stackStatusCb with
      | none => exact .pure h.composes _
      | some cb =>
        exact Moves.ite (Moves.bind h.composes (hCb cb rfl) fun _ => .pure h.composes _)
          (.pure h.composes _)
  · intro res
    split
    · exact .pure h.composes _
    · apply Moves.bind h.composes
      · exact h.getStackStatus _
      · intro status
        exact Moves.ite (.pure h.composes _) (.pure h.composes _)

theorem writeAttribute {sap : Sap} {id : UInt16} {value : List UInt8}
    (hWrite : Sends env r (attributeWrite sap id value)) :
    Moves r (writeAttribute env sap id value) := moves_writeAttribute h.composes hWrite

theorem wpcSetNetworkAddress {add : UInt32}
    (hWrite : Sends env r (attributeWrite .csap cNetworkAddressId ((uint32EncodeLe add).take 3))) :
    Moves r (wpcSetNetworkAddress env add) := moves_wpcSetNetworkAddress h.composes hWrite

theorem wpcSetAppConfigData {seq : UInt8} {interval : UInt16} {config : List UInt8}
    (hWrite : Sends env r (appConfigDataWrite seq interval config)) :
    Moves r (wpcSetAppConfigData env seq interval config) :=
  moves_wpcSetAppConfigData h.composes (h.attributeRead _ _) hWrite

theorem converted {q : Request} (hSend : Sends env r q) (convert : Int → AppRes) :
    Moves r (do
      let res ← ask (env.request q)
      return convert res : Call γ ν AppRes) := by
  apply Moves.bind h.composes
  · exact hSend
  · intro res
    exact .pure h.composes _

theorem uploadBlocks (hBlock : ∀ start bytes, Sends env r (scratchpadBlock start bytes))
    (bytes : List UInt8) (start : UInt32) (maxBlockSize : UInt8) (n loaded : Nat) :
    Moves r (uploadBlocks env bytes start maxBlockSize n loaded) := by
  induction n generalizing loaded with
  | zero => exact .unfinished h.composes
  | succ n ih =>
    unfold Wpc.uploadBlocks
    apply Moves.ite _ (.pure h.composes _)
    apply Moves.bind h.composes
    · exact Moves.ite (.pure h.composes _) (hBlock _ _)
    · intro res
      exact Moves.ite (.pure h.composes _) (ih _)

theorem wpcUploadLocalBlockScratchpad
    (hBlock : ∀ start bytes, Sends env r (scratchpadBlock start bytes)) (bytes : List UInt8)
    (start : UInt32) : Moves r (wpcUploadLocalBlockScratchpad env bytes start) := by
  apply Moves.bind h.composes
  · exact h.readAttribute _ _ _ _
  · intro result
    split
    · exact .pure h.composes _
    · exact h.uploadBlocks hBlock _ _ _ _ _

theorem wpcUploadLocalScratchpad (hStart : ∀ length seq, Sends env r (scratchpadStart length seq))
    (hBlock : ∀ start bytes, Sends env r (scratchpadBlock start bytes)) (bytes : List UInt8)
    (seq : UInt8) : Moves r (wpcUploadLocalScratchpad env bytes seq) := by
  apply Moves.bind h.composes (h.converted (hStart _ _) _)
  intro res
  exact Moves.ite (.pure h.composes _) (h.wpcUploadLocalBlockScratchpad hBlock _ _)

end Asks

end CMeshApi.Wpc
