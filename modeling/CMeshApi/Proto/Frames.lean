import CMeshApi.Proto.Otap
import CMeshApi.Wpc.Frames

/-!
# What the handlers leave alone

The relations that hold along the calls of the handlers. A refresh asks the node and
stores in the cache; a request adds its writes, and a load its static variables.
-/

namespace CMeshApi.Proto

open Programs Wpc

variable {ν α : Type} {env : Environment ν} {r : World Gateway ν → World Gateway ν → Prop}

/-- The relation holds along a change of the cache. -/
def Stores (r : World Gateway ν → World Gateway ν → Prop) (f : SinkConfig → SinkConfig) : Prop :=
  ∀ w, r w { w with gateway.sinkConfig := f w.gateway.sinkConfig }

theorem Stores.changeConfig {f : SinkConfig → SinkConfig} (h : Stores r f) :
    Moves r (changeConfig f : Call Gateway ν Unit) := h

theorem moves_gateway (hr : Composes r) : Moves r (gateway : Call Gateway ν Gateway) := .read hr _

namespace Reading

variable (h : Asks env r)

include h

theorem fillSinkReadConfig : Moves r (fillSinkReadConfig env) := by
  apply Moves.bind h.composes (moves_gateway h.composes)
  intro g
  apply Moves.ite _ (.pure h.composes _)
  apply Moves.bind h.composes (h.wpcGetAppConfigData _)
  intro result
  split
  · exact .pure h.composes _
  · exact .pure h.composes _

theorem fillStatusEvent (state : OnOffState) (configCount : UInt16) :
    Moves r (fillStatusEvent env state configCount) := by
  apply Moves.bind h.composes
  · exact Moves.ite (fillSinkReadConfig h) (.pure h.composes _)
  · intro config
    apply Moves.bind h.composes (moves_gateway h.composes)
    intro g
    apply Moves.bind h.composes
    · exact h.timestampMsEpoch
    · intro now
      apply Moves.bind h.composes
      · exact h.rand
      · intro rand
        apply Moves.bind h.composes
        · exact h.rand
        · intro rand'
          exact .pure h.composes _

theorem fillResponseHeader (req : RequestHeader) (res : ErrorCode) :
    Moves r (fillResponseHeader env req res) := by
  apply Moves.bind h.composes
  · exact h.timestampMsEpoch
  · intro now
    apply Moves.bind h.composes (moves_gateway h.composes)
    intro g
    exact .pure h.composes _

theorem stackRunning : Moves r (stackRunning env) := by
  apply Moves.bind h.composes (h.readAttribute _ _ _ _)
  intro result
  split
  · exact .pure h.composes _
  · exact .pure h.composes _

theorem getValueFromNode {read : Call Gateway ν (Except AppRes α)} (hRead : Moves r read)
    {store : α → SinkConfig → SinkConfig} (hStore : ∀ v, Stores r (store v)) :
    Moves r (getValueFromNode read store) := by
  apply Moves.bind h.composes hRead
  intro result
  split
  · exact Moves.bind h.composes (hStore _).changeConfig fun _ => .pure h.composes _
  · exact .pure h.composes _

theorem initializeOtapVariables
    (hStatus : ∀ v, Stores r fun c => { c with otapStatus := v })
    (hTarget : ∀ v, Stores r fun c => { c with target := v }) :
    Moves r (initializeOtapVariables env) := by
  apply Moves.bind h.composes (getValueFromNode h h.wpcGetLocalScratchpadStatus hStatus)
  intro status
  apply Moves.bind h.composes (getValueFromNode h h.wpcReadTargetScratchpad hTarget)
  intro target
  exact .pure h.composes _

theorem reportEvent (hEvents : ∀ events w, r w { w with gateway.statusEvents := events })
    (event : Raw.StatusEvent) : Moves r (reportEvent event) := by
  apply Moves.change
  intro w
  split
  · exact h.composes.refl w
  · split
    · exact hEvents _ w
    · exact h.composes.refl w

theorem sendStatusEvent (hEvents : ∀ events w, r w { w with gateway.statusEvents := events }) :
    Moves r (sendStatusEvent env) := by
  apply Moves.bind h.composes
  · exact h.malloc
  · intro allocated
    apply Moves.ite _ (.pure h.composes _)
    apply Moves.bind h.composes
    · exact h.malloc
    · intro allocated'
      apply Moves.ite _ (.pure h.composes _)
      apply Moves.bind h.composes (fillStatusEvent h _ _)
      intro event
      exact reportEvent h hEvents event

theorem readAll {reads : List (Call Gateway ν Bool)} (hReads : ∀ p ∈ reads, Moves r p) :
    Moves r (readAll reads) := by
  induction reads with
  | nil => exact .pure h.composes _
  | cons read reads ih =>
    apply Moves.bind h.composes (hReads read List.mem_cons_self)
    intro res
    apply Moves.bind h.composes (ih fun p hp => hReads p (List.mem_cons_of_mem _ hp))
    intro rest
    exact .pure h.composes _

theorem getFirmwareVersion (hStore : ∀ version : SinkConfig → CArray UInt16 4,
    Stores r fun c => { c with version := version c }) : Moves r (getFirmwareVersion env) := by
  apply Moves.bind h.composes (h.firmwareVersion _ _)
  rintro ⟨res, version⟩
  exact Moves.bind h.composes (hStore _).changeConfig fun _ => .pure h.composes _

theorem refreshFullStackState (hReads : ∀ p ∈ configReads env, Moves r p)
    (hStatus : ∀ v, Stores r fun c => { c with otapStatus := v })
    (hTarget : ∀ v, Stores r fun c => { c with target := v }) :
    Moves r (refreshFullStackState env) := by
  apply Moves.bind h.composes (readAll h hReads)
  intro config
  apply Moves.bind h.composes (initializeOtapVariables h hStatus hTarget)
  intro otap
  exact .pure h.composes _

theorem setValue {write : Call Gateway ν AppRes} {store : Call Gateway ν Unit}
    (hWrite : Moves r write) (hStore : Moves r store) (p : Progress) :
    Moves r (setValue write store p) := by
  apply Moves.bind h.composes hWrite
  intro res
  apply Moves.ite (.pure h.composes _)
  exact Moves.bind h.composes hStore fun _ => .pure h.composes _

theorem setField {field : Option α} {cached : SinkConfig → α → Bool} {inRange : α → Bool}
    {write : α → Call Gateway ν AppRes} {store : α → SinkConfig → SinkConfig}
    (hWrite : ∀ v, Moves r (write v)) (hStore : ∀ v, Stores r (store v)) (p : Progress) :
    Moves r (setField field cached inRange write store p) := by
  apply Moves.bind h.composes (moves_gateway h.composes)
  intro g
  split
  · exact .pure h.composes _
  · apply Moves.ite (.pure h.composes _)
    exact Moves.ite (setValue h (hWrite _) (hStore _).changeConfig p) (.pure h.composes _)

theorem setAppConfig
    (hWrite : ∀ seq interval config, Sends env r (appConfigDataWrite seq interval config))
    (cfg : SinkNewConfig) (p : Progress) : Moves r (setAppConfig env cfg p) := by
  unfold Proto.setAppConfig
  split
  · exact .pure h.composes _
  · apply Moves.ite (.pure h.composes _)
    apply Moves.ite (.pure h.composes _)
    exact setValue h (h.wpcSetAppConfigData (hWrite _ _ _)) (.pure h.composes _) p

theorem setKeys (hCipher : ∀ key, Sends env r (attributeWrite .csap cCipherKeyId key))
    (hAuth : ∀ key, Sends env r (attributeWrite .csap cAuthKeyId key))
    (hCipherSet : ∀ v, Stores r fun c => { c with cipherKeySet := v })
    (hAuthSet : ∀ v, Stores r fun c => { c with authenticationKeySet := v })
    (cfg : SinkNewConfig) (p : Progress) : Moves r (setKeys env cfg p) := by
  unfold Proto.setKeys
  split
  · exact .pure h.composes _
  · next keys _ =>
    have hKeySet : ∀ {id : UInt16} {store : Bool → SinkConfig → SinkConfig},
        (∀ v, Stores r (store v)) → Moves r (do
          let _ ← Proto.getValueFromNode (isKeySet env id) store) := fun hStore =>
      Moves.bind h.composes (getValueFromNode h (h.isKeySet _) hStore) fun _ => .pure h.composes _
    apply Moves.bind h.composes
    · exact setValue h (h.writeAttribute (hCipher _)) (hKeySet hCipherSet) p
    · intro p
      exact setValue h (h.writeAttribute (hAuth _)) (hKeySet hAuthSet) p

theorem stopForConfig (hAutostart : Sends env r (attributeWrite .msap msapAutostart [0]))
    (hStop : Sends env r stackStop)
    (hStore : Stores r fun c => { c with stackStatus := c.stackStatus ||| appStackStopped })
    (p : Progress) : Moves r (stopForConfig env p) := by
  apply Moves.bind h.composes (h.writeAttribute hAutostart)
  intro _
  exact setValue h (h.wpcStopStack hStop) hStore.changeConfig p

end Reading

/-- The relation holds along a refresh, and along the changes of the stack status in the cache. -/
structure Refreshes (env : Environment ν) (r : World Gateway ν → World Gateway ν → Prop) : Prop where
  asks : Asks env r
  refresh : Moves r (refreshFullStackState env)
  stackStatus : ∀ status : SinkConfig → UInt8, Stores r fun c => { c with stackStatus := status c }
  events : ∀ events w, r w { w with gateway.statusEvents := events }

/-- The configuration is read without a change of the target in the cache. -/
theorem moves_configReads (h : Asks env r)
    (hStores : ∀ f : SinkConfig → SinkConfig, (∀ c, (f c).target = c.target) → Stores r f) :
    ∀ p ∈ configReads env, Moves r p := by
  have hRead : ∀ {α : Type} {read : Call Gateway ν (Except AppRes α)}
      {store : α → SinkConfig → SinkConfig}, (∀ v c, (store v c).target = c.target) →
        Moves r read → Moves r (getValueFromNode read store) :=
    fun hSame hRead => Reading.getValueFromNode h hRead fun v => hStores _ (hSame v)
  unfold configReads
  simp only [List.forall_mem_cons]
  refine ⟨?_, ?_, ?_, ?_, ?_, ?_, ?_, ?_, ?_, ?_, ?_, ?_, ?_, ?_, ?_,
    Reading.getFirmwareVersion h fun _ => hStores _ fun _ => rfl, nofun⟩
  case refine_8 => exact hRead (fun _ _ => rfl) (h.isKeySet _)
  case refine_9 => exact hRead (fun _ _ => rfl) (h.isKeySet _)
  all_goals exact hRead (fun _ _ => rfl) (h.readAttribute _ _ _ _)

/-- The relation does not look at the cache. -/
theorem refreshes_of_stores (h : Asks env r) (hStores : ∀ f, Stores r f)
    (hEvents : ∀ events w, r w { w with gateway.statusEvents := events }) : Refreshes env r where
  asks := h
  refresh := Reading.refreshFullStackState h (moves_configReads h fun f _ => hStores f)
    (fun _ => hStores _) fun _ => hStores _
  stackStatus _ := hStores _
  events := hEvents

theorem refreshes_gateway {x : Gateway → α} (hStores : ∀ g c, x { g with sinkConfig := c } = x g)
    (hEvents : ∀ g events, x { g with statusEvents := events } = x g) :
    Refreshes env fun w t : World Gateway ν => x t.gateway = x w.gateway := by
  apply refreshes_of_stores
  · exact (keeps_unit env).asks (composes_eq fun w : World Gateway ν => x w.gateway) fun _ _ _ => rfl
  · exact fun _ w => hStores w.gateway _
  · exact fun _ w => hEvents w.gateway _

/-- The attributes that a new configuration may write. -/
def configAttributes : List (Sap × UInt16) :=
  [(.csap, cNodeRoleId), (.csap, cNodeAddressId), (.csap, cNetworkAddressId),
    (.csap, cNetworkChannelId), (.csap, cCipherKeyId), (.csap, cAuthKeyId),
    (.msap, msapAccessCycleRange)]

def configures (q : Wpc.Request) : Bool :=
  match q.payload with
  | .attributeWrite id _ _ =>
    configAttributes.any fun a => q.primitiveId == a.1.writeRequest && id == a.2
  | _ => false

namespace Refreshes

variable (h : Refreshes env r)

include h

theorem onStackStatusReceived (status : UInt8) : Moves r (onStackStatusReceived env status) := by
  apply Moves.bind h.asks.composes h.refresh
  intro _
  exact Reading.sendStatusEvent h.asks h.events

theorem startStack (hStart : Sends env r (stackStart 0)) : Moves r (startStack env) := by
  apply Moves.bind h.asks.composes (moves_gateway h.asks.composes)
  intro g
  apply h.asks.wpcStartStack hStart
  intro cb hCb
  split at hCb
  · obtain rfl : Proto.onStackStatusReceived env = cb := Option.some.inj hCb
    exact h.onStackStatusReceived 0
  · cases hCb

theorem returns_startStack {w t : World Gateway ν} {res : AppRes} (hStart : Returns (Proto.startStack env) w res t) :
    r { w with node := (env.request (stackStart 0) w.node).2 } t := by
  obtain ⟨g, u, hGateway, hRest⟩ := returns_bind.mp hStart
  rw [(returns_read.mp hGateway).2] at hRest
  refine h.asks.returns_wpcStartStack ?_ hRest
  intro cb hCb
  split at hCb
  · obtain rfl : Proto.onStackStatusReceived env = cb := Option.some.inj hCb
    exact h.onStackStatusReceived 0
  · cases hCb

theorem setFields (hStores : ∀ f, Stores r f)
    (hWrite : ∀ a ∈ configAttributes, ∀ value, Sends env r (attributeWrite a.1 a.2 value))
    (hConfig : ∀ seq interval config, Sends env r (appConfigDataWrite seq interval config))
    (cfg : SinkNewConfig) (p : Progress) : Moves r (setFields env cfg p) := by
  unfold configAttributes at hWrite
  simp only [List.forall_mem_cons] at hWrite
  obtain ⟨hRole, hAddress, hNetwork, hChannel, hCipher, hAuth, hRange, -⟩ := hWrite
  apply Moves.bind h.asks.composes
  · exact Reading.setField h.asks (fun _ => h.asks.writeAttribute (hRole _)) (fun _ => hStores _) p
  · intro p
    apply Moves.bind h.asks.composes
    · exact Reading.setField h.asks (fun _ => h.asks.writeAttribute (hAddress _)) (fun _ => hStores _) p
    · intro p
      apply Moves.bind h.asks.composes
      · exact Reading.setField h.asks (fun _ => h.asks.wpcSetNetworkAddress (hNetwork _))
          (fun _ => hStores _) p
      · intro p
        apply Moves.bind h.asks.composes
        · exact Reading.setField h.asks (fun _ => h.asks.writeAttribute (hChannel _))
            (fun _ => hStores _) p
        · intro p
          apply Moves.bind h.asks.composes
          · exact Reading.setAppConfig h.asks hConfig cfg p
          · intro p
            apply Moves.bind h.asks.composes
            · exact Reading.setKeys h.asks hCipher hAuth (fun _ => hStores _) (fun _ => hStores _) cfg p
            · intro p
              rw [setAcRange_eq]
              exact Reading.setField h.asks (fun _ => h.asks.writeAttribute (hRange _))
                (fun _ => hStores _) p

theorem restartForConfig (hStart : Sends env r (stackStart 0))
    (hAutostart : Sends env r (attributeWrite .msap msapAutostart [1])) (p : Progress) :
    Moves r (restartForConfig env p) := by
  apply Moves.bind h.asks.composes (h.startStack hStart)
  intro res
  apply Moves.ite (.pure h.asks.composes _)
  apply Moves.bind h.asks.composes (h.asks.writeAttribute hAutostart)
  intro _
  exact Moves.bind h.asks.composes (h.stackStatus _).changeConfig fun _ => .pure h.asks.composes _

/-- For a relation that looks neither at the cache nor at what is sent. -/
theorem setConfig (hStores : ∀ f, Stores r f) (hSends : ∀ q, Sends env r q) (req : SetConfigReq)
    (resp : Raw.SetConfigResp) : Moves r (protoConfigHandleSetConfig env req resp) := by
  apply Moves.bind h.asks.composes (moves_gateway h.asks.composes)
  intro g
  apply Moves.ite
  · exact Moves.bind h.asks.composes (Reading.fillResponseHeader h.asks _ _) fun _ => .pure h.asks.composes _
  · apply Moves.bind h.asks.composes
    · apply Moves.bind h.asks.composes
      · exact Reading.getValueFromNode h.asks (h.asks.readAttribute _ _ _ _) fun _ => hStores _
      · intro read
        apply Moves.bind h.asks.composes (moves_gateway h.asks.composes)
        intro g
        apply Moves.bind h.asks.composes
        · exact Moves.ite (Reading.stopForConfig h.asks (hSends _) (hSends _) (hStores _) _)
            (.pure h.asks.composes _)
        · intro p
          apply Moves.bind h.asks.composes
          · exact h.setFields hStores (fun _ _ _ => hSends _) (fun _ _ _ => hSends _) _ p
          · intro p
            apply Moves.bind h.asks.composes
            · exact Moves.ite (h.restartForConfig (hSends _) (hSends _) p) (.pure h.asks.composes _)
            · intro p
              apply Moves.bind h.asks.composes
              · exact Moves.ite (h.onStackStatusReceived _) (.pure h.asks.composes _)
              · exact fun _ => .pure h.asks.composes _
    · intro globalRes
      apply Moves.bind h.asks.composes (Reading.fillResponseHeader h.asks _ _)
      intro header
      exact Moves.bind h.asks.composes (Reading.fillSinkReadConfig h.asks) fun _ => .pure h.asks.composes _

theorem forceParametersUpdate : Moves r (forceParametersUpdate env) := by
  apply Moves.bind h.asks.composes (moves_gateway h.asks.composes)
  intro g
  exact Moves.ite (.pure h.asks.composes _) (h.onStackStatusReceived _)

theorem startLoad (hSeq : ∀ seq, Moves r (setCurrentSeq seq))
    (hStart : ∀ length seq, Sends env r (scratchpadStart length seq)) (totalSize seq : UInt32) :
    Moves r (startLoad env totalSize seq) := by
  apply Moves.bind h.asks.composes (hSeq _)
  intro _
  apply Moves.bind h.asks.composes (h.asks.converted (hStart _ _) _)
  intro res
  apply Moves.bind h.asks.composes h.forceParametersUpdate
  intro _
  apply Moves.ite _ (.pure h.asks.composes _)
  exact Moves.bind h.asks.composes (hSeq _) fun _ => .pure h.asks.composes _

theorem loadChunk (hSeq : ∀ seq, Moves r (setCurrentSeq seq))
    (hBlock : ∀ start bytes, Sends env r (scratchpadBlock start bytes)) (chunk : List UInt8)
    (offset totalSize seq : UInt32) : Moves r (loadChunk env chunk offset totalSize seq) := by
  apply Moves.bind h.asks.composes (moves_gateway h.asks.composes)
  intro g
  apply Moves.ite (.pure h.asks.composes _)
  apply Moves.bind h.asks.composes (h.asks.wpcUploadLocalBlockScratchpad hBlock _ _)
  intro res
  apply Moves.ite (.pure h.asks.composes _)
  apply Moves.ite _ (.pure h.asks.composes _)
  apply Moves.bind h.asks.composes (hSeq _)
  intro _
  exact Moves.bind h.asks.composes h.forceParametersUpdate fun _ => .pure h.asks.composes _

theorem updateScratchpad (hSeq : ∀ seq, Moves r (setCurrentSeq seq))
    (hStart : ∀ length seq, Sends env r (scratchpadStart length seq))
    (hBlock : ∀ start bytes, Sends env r (scratchpadBlock start bytes))
    (hClear : Sends env r scratchpadClear) (req : UploadScratchpadReq) :
    Moves r (updateScratchpad env req) := by
  unfold Proto.updateScratchpad
  split
  · split
    · apply Moves.bind h.asks.composes
      · exact Moves.ite (h.startLoad hSeq hStart _ _) (.pure h.asks.composes _)
      · intro res
        exact Moves.ite (.pure h.asks.composes _) (h.loadChunk hSeq hBlock _ _ _ _)
    · apply Moves.bind h.asks.composes
      · exact h.asks.wpcUploadLocalScratchpad hStart hBlock _ _
      · intro res
        apply Moves.bind h.asks.composes (hSeq _)
        intro _
        exact Moves.bind h.asks.composes h.forceParametersUpdate fun _ => .pure h.asks.composes _
  · apply Moves.bind h.asks.composes (h.asks.converted hClear _)
    intro res
    exact Moves.bind h.asks.composes (hSeq _) fun _ => .pure h.asks.composes _

theorem stopIfRunning (hAutostart : Sends env r (attributeWrite .msap msapAutostart [0]))
    (hStop : Sends env r stackStop) : Moves r (stopIfRunning env) := by
  apply Moves.bind h.asks.composes (Reading.stackRunning h.asks)
  intro running
  apply Moves.ite _ (.pure h.asks.composes _)
  apply Moves.bind h.asks.composes (h.asks.writeAttribute hAutostart)
  intro _
  apply Moves.bind h.asks.composes (h.asks.wpcStopStack hStop)
  intro _
  exact .pure h.asks.composes _

theorem startWithAutostart (hStart : Sends env r (stackStart 0))
    (hAutostart : Sends env r (attributeWrite .msap msapAutostart [1])) :
    Moves r (startWithAutostart env) := by
  apply Moves.bind h.asks.composes (h.startStack hStart)
  intro res
  apply Moves.ite (.pure h.asks.composes _)
  apply Moves.bind h.asks.composes (h.asks.writeAttribute hAutostart)
  intro _
  exact .pure h.asks.composes _

theorem restartAfterLoad (hSends : ∀ q, configures q = false → Sends env r q)
    (hRestart : ∀ restart, Moves r (setRestartAfterLoad restart)) (res : AppRes) :
    Moves r (restartAfterLoad env res) := by
  apply Moves.bind h.asks.composes (moves_gateway h.asks.composes)
  intro g
  apply Moves.ite _ (.pure h.asks.composes _)
  apply Moves.bind h.asks.composes (h.startWithAutostart (hSends _ rfl) (hSends _ rfl))
  intro restartRes
  exact Moves.bind h.asks.composes (hRestart _) fun _ => .pure h.asks.composes _

end Refreshes

/-- The relation holds along all that the handlers do but the writes of a new configuration. -/
structure Handles (env : Environment ν) (r : World Gateway ν → World Gateway ν → Prop) : Prop
    extends Refreshes env r where
  sends : ∀ q, configures q = false → Sends env r q
  currentSeq : ∀ seq, Moves r (setCurrentSeq seq)
  restart : ∀ restart, Moves r (setRestartAfterLoad restart)

namespace Handles

variable (h : Handles env r)

include h

theorem getConfigs (req : GetConfigsReq) (resp : Raw.GetConfigsResp) :
    Moves r (protoConfigHandleGetConfigs env req resp) := by
  apply Moves.bind h.asks.composes
  · exact Reading.getValueFromNode h.asks (h.asks.readAttribute _ _ _ _) fun _ => h.stackStatus _
  · intro status
    apply Moves.bind h.asks.composes (Reading.fillResponseHeader h.asks _ _)
    intro header
    apply Moves.bind h.asks.composes (Reading.fillSinkReadConfig h.asks)
    intro config
    exact .pure h.asks.composes _

theorem getScratchpadStatus (req : GetScratchpadStatusReq) (resp : Raw.GetScratchpadStatusResp) :
    Moves r (protoConfigHandleGetScratchpadStatus env req resp) := by
  apply Moves.bind h.asks.composes (moves_gateway h.asks.composes)
  intro g
  apply Moves.bind h.asks.composes (Reading.fillResponseHeader h.asks _ _)
  intro header
  exact .pure h.asks.composes _

theorem uploadStopped (req : UploadScratchpadReq) (stopped : Bool) :
    Moves r (do
      (if stopped then setRestartAfterLoad true else pure ())
      let res ← Proto.updateScratchpad env req
      Proto.restartAfterLoad env res) := by
  apply Moves.bind h.asks.composes (Moves.ite (h.restart _) (.pure h.asks.composes _))
  intro _
  apply Moves.bind h.asks.composes
  · exact h.updateScratchpad h.currentSeq (fun _ _ => h.sends _ rfl) (fun _ _ => h.sends _ rfl)
      (h.sends _ rfl) req
  · intro res
    exact h.restartAfterLoad h.sends h.restart res

theorem uploadScratchpad (req : UploadScratchpadReq) (resp : Raw.UploadScratchpadResp) :
    Moves r (protoOtapHandleUploadScratchpad env req resp) := by
  apply Moves.bind h.asks.composes
  · apply Moves.ite (.pure h.asks.composes _)
    apply Moves.bind h.asks.composes (h.stopIfRunning (h.sends _ rfl) (h.sends _ rfl))
    intro stopped
    exact h.uploadStopped req stopped
  · intro res
    apply Moves.bind h.asks.composes (Reading.fillResponseHeader h.asks _ _)
    intro header
    exact .pure h.asks.composes _

theorem processStopped (restart : Bool) :
    Moves r (do
      let globalRes ← updateAndReboot env
      if restart then
        let res ← Proto.startWithAutostart env
        return if globalRes = .ok then res else globalRes
      else return globalRes) := by
  apply Moves.bind h.asks.composes
  · apply Moves.bind h.asks.composes (h.asks.converted (h.sends _ rfl) _)
    intro res
    exact Moves.ite (.pure h.asks.composes _) (h.asks.wpcStopStack (h.sends _ rfl))
  · intro globalRes
    apply Moves.ite _ (.pure h.asks.composes _)
    apply Moves.bind h.asks.composes (h.startWithAutostart (h.sends _ rfl) (h.sends _ rfl))
    intro res
    exact .pure h.asks.composes _

theorem processScratchpad (req : ProcessScratchpadReq) (resp : Raw.ProcessScratchpadResp) :
    Moves r (protoOtapHandleProcessScratchpad env req resp) := by
  apply Moves.bind h.asks.composes
  · apply Moves.bind h.asks.composes (h.stopIfRunning (h.sends _ rfl) (h.sends _ rfl))
    intro restart
    exact h.processStopped restart
  · intro globalRes
    apply Moves.bind h.asks.composes (Reading.fillResponseHeader h.asks _ _)
    intro header
    exact .pure h.asks.composes _

theorem getGatewayInfo (req : GetGwInfoReq) (resp : Raw.GetGwInfoResp) :
    Moves r (protoConfigHandleGetGatewayInfoRequest env req resp) := by
  apply Moves.bind h.asks.composes (Reading.fillResponseHeader h.asks _ _)
  intro header
  apply Moves.bind h.asks.composes
  · exact h.asks.timestampMsEpoch
  · intro now
    apply Moves.bind h.asks.composes (moves_gateway h.asks.composes)
    intro g
    exact .pure h.asks.composes _

theorem setScratchpadTargetAndAction (req : SetScratchpadTargetAndActionReq)
    (resp : Raw.SetScratchpadTargetAndActionResp) :
    Moves r (protoConfigHandleSetScratchpadTargetAndActionRequest env req resp) := by
  apply Moves.bind h.asks.composes (moves_gateway h.asks.composes)
  intro g
  apply Moves.bind h.asks.composes
  · unfold writeTarget
    split
    · exact h.asks.converted (h.sends _ rfl) _
    · exact .pure h.asks.composes _
  · intro res
    apply Moves.bind h.asks.composes (h.onStackStatusReceived _)
    intro _
    apply Moves.bind h.asks.composes (Reading.fillResponseHeader h.asks _ _)
    intro header
    exact .pure h.asks.composes _

end Handles

end CMeshApi.Proto
