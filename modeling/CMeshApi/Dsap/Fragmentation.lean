import CMeshApi.Dsap.Arrival
import CMeshApi.Dsap.Transmission

/-!
# A fragmented packet arrives whole

The requests that a call of `dsap_data_tx_request` sends for a long payload cut it
into chunks of one MTU. What the requests carry is what the indications bring to
the receiver, so the fragments that arrive split the payload.
-/

namespace CMeshApi.Dsap

open Reassembly Machine Segment

section Cutting

variable {mtu len : Nat}

theorem fragments_bounds (hMtu : 0 < mtu) (hLen : 0 < len) :
    0 < fragments mtu len ∧ (fragments mtu len - 1) * mtu < len ∧ len ≤ fragments mtu len * mtu := by
  have hDiv := Nat.div_add_mod (len + mtu - 1) mtu
  have hMod := Nat.mod_lt (len + mtu - 1) hMtu
  have hPos : 0 < (len + mtu - 1) / mtu := Nat.div_pos (by omega) hMtu
  unfold fragments
  rw [Nat.sub_mul, Nat.mul_comm _ mtu]
  omega

theorem lastFragmentSize_eq (hMtu : 0 < mtu) (hLen : 0 < len) :
    lastFragmentSize mtu len = len - (fragments mtu len - 1) * mtu := by
  obtain ⟨hPos, hLow, hHigh⟩ := fragments_bounds hMtu hLen
  obtain ⟨n, hn⟩ : ∃ n, fragments mtu len = n + 1 := ⟨fragments mtu len - 1, by omega⟩
  rw [hn, Nat.add_sub_cancel] at hLow ⊢
  rw [hn, Nat.succ_mul] at hHigh
  obtain ⟨rest, hRest⟩ : ∃ rest, len = rest + n * mtu := ⟨len - n * mtu, by omega⟩
  have hMod : len % mtu = rest % mtu := by rw [hRest, Nat.add_mul_mod_self_right]
  unfold lastFragmentSize
  rw [hMod]
  rcases Nat.lt_or_ge rest mtu with hShort | hFull
  · rw [Nat.mod_eq_of_lt hShort, if_neg (by omega)]
    omega
  · have hWhole : rest = mtu := by omega
    rw [hWhole, Nat.mod_self, if_pos rfl]
    omega

theorem fragFlag_offset (offset : UInt16) (last : Bool) :
    ((offset &&& dsapFragLengthMask) ||| (if last then dsapFragLastFlagMask else 0)) &&&
      dsapFragLengthMask = offset &&& dsapFragLengthMask := by
  have hMasks : dsapFragLastFlagMask &&& dsapFragLengthMask = 0 := by decide
  apply UInt16.toBitVec_inj.mp
  rw [UInt16.toBitVec_and, UInt16.toBitVec_or, BitVec.and_or_distrib_right, ← UInt16.toBitVec_and,
    ← UInt16.toBitVec_and, UInt16.and_assoc, UInt16.and_self]
  cases last with
  | true => rw [if_pos rfl, hMasks, UInt16.toBitVec_zero, BitVec.or_zero]
  | false => rw [if_neg Bool.false_ne_true, UInt16.zero_and, UInt16.toBitVec_zero, BitVec.or_zero]

theorem fragFlag_last (offset : UInt16) (last : Bool) :
    (((offset &&& dsapFragLengthMask) ||| (if last then dsapFragLastFlagMask else 0)) &&&
      dsapFragLastFlagMask == dsapFragLastFlagMask) = last := by
  have hMasks : dsapFragLengthMask &&& dsapFragLastFlagMask = 0 := by decide
  have hFlag : ((offset &&& dsapFragLengthMask) ||| (if last then dsapFragLastFlagMask else 0)) &&&
      dsapFragLastFlagMask = if last then dsapFragLastFlagMask else 0 := by
    apply UInt16.toBitVec_inj.mp
    rw [UInt16.toBitVec_and, UInt16.toBitVec_or, BitVec.and_or_distrib_right, ← UInt16.toBitVec_and,
      ← UInt16.toBitVec_and, UInt16.and_assoc, hMasks, UInt16.and_zero, UInt16.toBitVec_zero,
      BitVec.zero_or]
    cases last with
    | true => rw [if_pos rfl, UInt16.and_self]
    | false => rw [if_neg Bool.false_ne_true, UInt16.zero_and]
  rw [hFlag]
  cases last with
  | true => decide
  | false => decide

theorem offset_toNat {offset : Nat} (h : offset < 4096) :
    (UInt16.ofNat offset &&& dsapFragLengthMask).toNat = offset := by
  have hMask : dsapFragLengthMask.toNat = 2 ^ 12 - 1 := rfl
  rw [UInt16.toNat_and, UInt16.toNat_ofNat', hMask, Nat.and_two_pow_sub_one_eq_mod]
  omega

end Cutting

theorem sendFragments_confirmed (request : Nat → TxRequest) {answer : Nat → Answer}
    (hAnswers : ∀ i, (answer i).res = 0 ∧ (answer i).confirmResult = 0) (n i : Nat) :
    sendFragments request answer n i = ((List.range' i n).map request, none) := by
  induction n generalizing i with
  | zero => rfl
  | succ n ih =>
    obtain ⟨hRes, hConfirm⟩ := hAnswers i
    rw [sendFragments, if_neg (by omega), if_neg (by rw [hConfirm]; decide), ih,
      List.range'_succ, List.map_cons]

theorem transmit_confirmed {mtu : UInt8} {packetId : UInt16} {tx : DataTx}
    {answer : Nat → Answer} (hMtu : 0 < mtu.toNat) (hLong : mtu.toNat < tx.buffer.length)
    (hSize : tx.buffer.length ≤ maxFullPacketSize)
    (hAnswers : ∀ i, (answer i).res = 0 ∧ (answer i).confirmResult = 0) :
    transmit mtu packetId tx answer = some ⟨packetId + 1,
      (List.range (fragments mtu.toNat tx.buffer.length)).map
        (fragRequest mtu.toNat tx (packetId &&& 0xfff)), 0, true⟩ := by
  have hZero : mtu ≠ 0 := by
    rintro rfl
    exact absurd hMtu (by decide)
  simp only [transmit]
  rw [if_neg (Nat.not_lt.mpr hSize), if_neg (Nat.not_le.mpr hLong), if_neg hZero,
    sendFragments_confirmed _ hAnswers, List.range_eq_range']

/-- What a fragment request says to the receiver that gets it from the given source. -/
def TxRequest.fragFrom (src : UInt32) (r : TxRequest) : Option ReassemblyFragment :=
  match r.payload with
  | .tt _ => none
  | .frag p => some {
      srcAdd := src
      packetId := ⟨p.fullPacketId.setWidth 16⟩
      offset := (p.fragmentOffsetFlag &&& dsapFragLengthMask).toNat
      lastFragment := p.fragmentOffsetFlag &&& dsapFragLastFlagMask == dsapFragLastFlagMask
      bytes := p.apdu }

def chunkFragment (src : UInt32) (pId : UInt16) (mtu : Nat) (buffer : List UInt8) (i : Nat) :
    ReassemblyFragment where
  srcAdd := src
  packetId := ⟨(BitVec.ofNat 12 pId.toNat).setWidth 16⟩
  offset := i * mtu
  lastFragment := i == fragments mtu buffer.length - 1
  bytes := (chunk buffer mtu i).bytes

section Sending

variable {tx : DataTx} {mtu : Nat}

theorem place_lt (hMtu : 0 < mtu) (hLen : 0 < tx.buffer.length) {i : Nat}
    (hi : i < fragments mtu tx.buffer.length) : i * mtu < tx.buffer.length := by
  obtain ⟨-, hLow, -⟩ := fragments_bounds hMtu hLen
  have hLe : i * mtu ≤ (fragments mtu tx.buffer.length - 1) * mtu :=
    Nat.mul_le_mul_right mtu (by omega)
  exact Nat.lt_of_le_of_lt hLe hLow

theorem fragFrom_fragRequest (src : UInt32) (pId : UInt16) (hMtu : 0 < mtu)
    (hLen : 0 < tx.buffer.length) (hSize : tx.buffer.length ≤ maxFullPacketSize) {i : Nat}
    (hi : i < fragments mtu tx.buffer.length) :
    (fragRequest mtu tx pId i).fragFrom src = some (chunkFragment src pId mtu tx.buffer i) := by
  have hPlace := place_lt hMtu hLen hi
  have hSmall : i * mtu < 4096 := by
    have hMax : maxFullPacketSize < 4096 := by decide
    omega
  have hOffset : (UInt16.ofNat (i * mtu)).toNat = i * mtu := by
    rw [UInt16.toNat_ofNat']
    omega
  simp only [TxRequest.fragFrom, fragRequest, fillTxFragRequest, fillTxTtRequest, fragFlag_offset,
    fragFlag_last, offset_toNat hSmall, hOffset, chunkFragment, chunk]
  congr 2
  split
  · next hLast =>
    -- the last fragment is short, and so is what is left of the payload
    obtain rfl : i = fragments mtu tx.buffer.length - 1 := by simpa using hLast
    obtain ⟨hPos, hLow, hHigh⟩ := fragments_bounds hMtu hLen
    have hSucc := Nat.succ_mul (fragments mtu tx.buffer.length - 1) mtu
    have hCount : (fragments mtu tx.buffer.length - 1).succ = fragments mtu tx.buffer.length := by
      omega
    rw [hCount] at hSucc
    rw [lastFragmentSize_eq hMtu hLen, List.take_of_length_le (by rw [List.length_drop]),
      List.take_of_length_le (by rw [List.length_drop]; omega)]
  · rfl

theorem splits_chunks (src : UInt32) (pId : UInt16) (hMtu : 0 < mtu) (hLen : 0 < tx.buffer.length) :
    Splits tx.buffer ((List.range (fragments mtu tx.buffer.length)).map
      (chunkFragment src pId mtu tx.buffer)) := by
  obtain ⟨hPos, hLow, hHigh⟩ := fragments_bounds hMtu hLen
  have hPiece : ∀ i, (chunkFragment src pId mtu tx.buffer i).piece = chunk tx.buffer mtu i :=
    fun _ => rfl
  constructor
  case offsets =>
    rw [List.pairwise_map]
    refine List.nodup_range.imp fun hNe hEq => hNe ?_
    exact Nat.eq_of_mul_eq_mul_right hMtu hEq
  case nonempty =>
    intro f hf
    obtain ⟨i, hi, rfl⟩ := List.mem_map.mp hf
    have hPlace := place_lt hMtu hLen (List.mem_range.mp hi)
    have hChunk := size_chunk tx.buffer mtu i
    change 0 < (chunk tx.buffer mtu i).size
    omega
  case pieces =>
    intro f hf
    obtain ⟨i, -, rfl⟩ := List.mem_map.mp hf
    exact pieceOf_chunk tx.buffer mtu i
  case covered =>
    intro i hi
    refine ⟨chunkFragment src pId mtu tx.buffer (i / mtu), List.mem_map.mpr ⟨_, ?_, rfl⟩,
      chunk_covers hMtu hi⟩
    rw [List.mem_range, Nat.div_lt_iff_lt_mul hMtu]
    exact Nat.lt_of_lt_of_le hi hHigh
  case total_eq =>
    rw [List.map_map]
    exact (total_chunks tx.buffer mtu _).trans (Nat.min_eq_right hHigh)
  case last_end =>
    intro f hf hLast
    obtain ⟨i, hi, rfl⟩ := List.mem_map.mp hf
    obtain rfl : i = fragments mtu tx.buffer.length - 1 := by
      simpa [chunkFragment] using hLast
    have hChunk := size_chunk tx.buffer mtu (fragments mtu tx.buffer.length - 1)
    have hSucc := Nat.succ_mul (fragments mtu tx.buffer.length - 1) mtu
    have hCount : (fragments mtu tx.buffer.length - 1).succ = fragments mtu tx.buffer.length := by
      omega
    rw [hCount] at hSucc
    change (fragments mtu tx.buffer.length - 1) * mtu +
      (chunk tx.buffer mtu (fragments mtu tx.buffer.length - 1)).size = tx.buffer.length
    omega
  case has_last =>
    refine ⟨_, List.mem_map_of_mem (List.mem_range.mpr (Nat.sub_lt hPos Nat.one_pos)), ?_⟩
    simp [chunkFragment]

end Sending

/-- The indication brings the fragment of a request, from the given source. -/
def Carries (src : UInt32) (r : TxRequest) : RxEvent → Prop
  | .fragIndication payload _ _ =>
    payload.srcAdd = src ∧ ∃ p, r.payload = .frag p ∧
      payload.fullPacketId = p.fullPacketId ∧
      payload.fragmentOffsetFlag = p.fragmentOffsetFlag ∧
      payload.apduLength = p.apduLength ∧
      payload.apdu.read 0 p.apduLength.toNat = p.apdu
  | _ => False

def sentKey (src : UInt32) (sender : Sender) : PacketKey := ⟨src, sender.packetId &&& 0xfff⟩

theorem Carries.frag {src : UInt32} {r : TxRequest} {payload : DsapDataRxFragIndPl}
    {timestampMsEpoch : Nat} {env : Env}
    (h : Carries src r (.fragIndication payload timestampMsEpoch env)) :
    r.fragFrom src = some payload.frag := by
  obtain ⟨hSrc, p, hPayload, hId, hFlag, hLength, hApdu⟩ := h
  rw [← hLength] at hApdu
  simp only [TxRequest.fragFrom, hPayload, DsapDataRxFragIndPl.frag,
    DsapDataRxFragIndPl.packetId, hSrc, hId, hFlag, hApdu]

theorem fragsFor_eq {src : UInt32} {key : PacketKey} {order : List TxRequest}
    {events : List RxEvent} (h : List.Forall₂ (Carries src) order (events.filter (IsFor key))) :
    fragsFor key events = order.filterMap (·.fragFrom src) := by
  induction events generalizing order with
  | nil =>
    cases h
    rfl
  | cons e events ih =>
    cases e with
    | fragIndication payload timestampMsEpoch env =>
      by_cases hKey : payload.key = key
      · have hFor : IsFor key (.fragIndication payload timestampMsEpoch env) = true :=
          decide_eq_true hKey
        rw [List.filter_cons_of_pos hFor] at h
        cases h with
        | cons hCarries hRest =>
          rw [fragsFor, if_pos hKey, List.filterMap_cons_some hCarries.frag, ih hRest]
      · rw [List.filter_cons_of_neg (by simpa [IsFor] using hKey)] at h
        rw [fragsFor, if_neg hKey, ih h]
    | _ => exact ih h

/-- The fragments of a packet, each delivered once in any order and mixed with fragments of
other packets, make the receiver call back once, with the last of them and the payload. -/
theorem fragmented_packet_arrives (mtu : UInt8) (sender : Sender) (tx : DataTx)
    (answer : Nat → Answer) (s : Receiver) (src : UInt32) (events : List RxEvent)
    {sender' : Sender} {sent : List TxRequest} {result : Int} {cb : OnDataReceivedCb}
    (hMtu : 1 ≤ mtu.toNat ∧ mtu.toNat ≤ maxApduDsapSize)
    (hLength : mtu.toNat < tx.buffer.length ∧ tx.buffer.length ≤ maxFullPacketSize)
    (hConfirmed : ∀ i, (answer i).res = 0 ∧ (answer i).confirmResult = 0)
    (hCall : dsapDataTxRequest mtu sender tx answer = some (sender', sent, result))
    (hCb : s.dataCb = some cb)
    (hNothing : getPacketFromHash s.reassembly.packets (sentKey src sender) = none)
    (hArrives : ∃ order, order.Perm sent ∧
      List.Forall₂ (Carries src) order (events.filter (IsFor (sentKey src sender))))
    (hOrdinary : ∀ e ∈ events, Ordinary e)
    (hKeeps : Meets step (KeepsPacket (sentKey src sender)) s events) :
    ∃ call, answersTo respond (IsFor (sentKey src sender)) s events =
        List.replicate (sent.length - 1) none ++ [some call] ∧
      call.cb = cb ∧ call.srcAdd = src ∧ call.bytes = tx.buffer := by
  have hLen : 0 < tx.buffer.length := by omega
  have hSent : sent = (List.range (fragments mtu.toNat tx.buffer.length)).map
      (fragRequest mtu.toNat tx (sender.packetId &&& 0xfff)) := by
    rw [dsapDataTxRequest, transmit_confirmed hMtu.1 hLength.1 hLength.2 hConfirmed] at hCall
    simp only [Option.map_some, Option.some.injEq] at hCall
    split at hCall <;> exact (congrArg (·.2.1) hCall).symm
  obtain ⟨order, hPerm, hCarries⟩ := hArrives
  have hFrags : sent.filterMap (·.fragFrom src) =
      (List.range (fragments mtu.toNat tx.buffer.length)).map
        (chunkFragment src (sender.packetId &&& 0xfff) mtu.toNat tx.buffer) := by
    rw [hSent, List.filterMap_map, ← List.filterMap_eq_map]
    refine List.filterMap_congr fun i hi => ?_
    exact fragFrom_fragRequest src _ hMtu.1 hLen hLength.2 (List.mem_range.mp hi)
  have hArrived := fragsFor_eq hCarries
  have hSplits : Splits tx.buffer (fragsFor (sentKey src sender) events) := by
    refine (splits_chunks src (sender.packetId &&& 0xfff) hMtu.1 hLen).perm ?_
    rw [← hFrags, hArrived]
    exact (hPerm.filterMap _).symm
  have hCount : (fragsFor (sentKey src sender) events).length = sent.length := by
    rw [hArrived, (hPerm.filterMap _).length_eq, hFrags, hSent, List.length_map, List.length_map]
  have hSome : fragsFor (sentKey src sender) events ≠ [] := by
    intro hNil
    obtain ⟨f, hf, -⟩ := hSplits.has_last
    rw [hNil] at hf
    cases hf
  have hAwaits : Awaits s (sentKey src sender) tx.buffer [] := by
    rw [Awaits, target, hNothing]
    exact holds_nil _
  obtain ⟨call, hCalls, hCallCb, hSrc, hBytes⟩ := run_delivers hOrdinary hKeeps hCb
    (List.ne_nil_of_length_pos hLen) hLength.2 hAwaits hSplits hSome
  rw [hCount] at hCalls
  exact ⟨call, hCalls, hCallCb, hSrc, hBytes⟩

/-- Three bytes at an MTU of two, with the id counter about to wrap on its 12 bits. -/
def threeBytes : DataTx := ⟨[10, 20, 30], 5, 9, 0, 1, 1, none, 0, false, 0⟩

def threeBytesFragment (flag : UInt16) (bytes : List UInt8) (src : UInt32) : RxEvent :=
  .fragIndication
    { indicationStatus := 0
      srcAdd := src
      srcEndpoint := 1
      destAdd := 9
      destEndpoint := 1
      qosHopCount := 0
      travelTime := 0
      fullPacketId := 0xfff
      fragmentOffsetFlag := flag
      apduLength := .ofNat bytes.length
      apdu := Memory.write (fun _ => 0) 0 bytes }
    0 ⟨.all, 0, 0⟩

def threeBytesEvents : List RxEvent :=
  [threeBytesFragment 0x8002 [30] 7, threeBytesFragment 0x8002 [3] 8, .collect 6000,
    threeBytesFragment 0 [10, 20] 7]

theorem fragmented_packet_arrives_three :
    ∃ call, answersTo respond (IsFor (sentKey 7 ⟨0x1fff, .init⟩))
        ⟨Reassembly.init, fun _ => 0, some 1⟩ threeBytesEvents =
          List.replicate 1 none ++ [some call] ∧
      call.cb = 1 ∧ call.srcAdd = 7 ∧ call.bytes = [10, 20, 30] :=
  fragmented_packet_arrives 2 ⟨0x1fff, .init⟩ threeBytes (fun _ => ⟨0, 0⟩) _ 7 threeBytesEvents
    (by decide) (by decide) (fun _ => ⟨rfl, rfl⟩) rfl rfl rfl
    ⟨_, List.Perm.swap _ _ [],
      .cons ⟨rfl, _, rfl, rfl, rfl, rfl, rfl⟩ (.cons ⟨rfl, _, rfl, rfl, rfl, rfl, rfl⟩ .nil)⟩
    (by decide) (by decide)

end CMeshApi.Dsap
