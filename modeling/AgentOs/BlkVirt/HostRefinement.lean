import AgentOs.Library.Simulation
import AgentOs.BlkVirt.Lifecycle

/-!
# The host backend refines the RAM backend

The host backend moves a request in chunks of at most one driver window, the RAM backend copies
it at once.
-/

namespace AgentOs.BlkVirt

open Library Prog

/-! ## Filling memory -/

section Fill

variable {μ : Type} {driver : Driver μ} {h : BlkHeap} {dst : BlkPtr} {n : Nat} {src : Nat -> UInt8}

/-- The memory with the `n` bytes from `dst` on replaced. -/
def BlkHeap.fill (h : BlkHeap) (dst : BlkPtr) (n : Nat) (src : Nat -> UInt8) : BlkHeap :=
  { h with
    byte := fun p =>
      if p.region = dst.region then
        overwrite (fun k => h.byte ⟨dst.region, k⟩) dst.off n src p.off
      else h.byte p }

/-- The memory with another content of the driver frame. -/
def BlkHeap.setWindow (h : BlkHeap) (window : Nat -> UInt8) : BlkHeap :=
  { h with byte := fun p => if p.region = .blkShared then window p.off else h.byte p }

theorem fill_byte (h : BlkHeap) (dst : BlkPtr) (n : Nat) (src : Nat -> UInt8) (k : Nat) :
    (h.fill dst n src).byte ⟨dst.region, k⟩ =
      overwrite (fun k => h.byte ⟨dst.region, k⟩) dst.off n src k :=
  if_pos rfl

theorem fill_byte_of_ne {p : BlkPtr} (hne : p.region ≠ dst.region) :
    (h.fill dst n src).byte p = h.byte p :=
  if_neg hne

theorem fill_byte_add {k : Nat} (hk : k < n) : (h.fill dst n src).byte (dst + k) = src k := by
  have hsame := fill_byte h dst n src (dst.off + k)
  rw [overwrite_of_mem (by omega) (by omega), Nat.add_sub_cancel_left] at hsame
  exact hsame

theorem setWindow_byte {window : Nat -> UInt8} {p : BlkPtr} (hne : p.region ≠ .blkShared) :
    (h.setWindow window).byte p = h.byte p :=
  if_neg hne

theorem withByte_congr {b d : BlkPtr -> UInt8} (hsame : ∀ p, b p = d p) :
    ({ h with byte := b } : BlkHeap) = { h with byte := d } := by
  rw [funext hsame]

theorem fill_zero (h : BlkHeap) (dst : BlkPtr) (src : Nat -> UInt8) : h.fill dst 0 src = h := by
  refine withByte_congr (d := h.byte) fun p => ?_
  split
  · rename_i hregion
    rw [overwrite_zero, <- hregion]
  · rfl

theorem fill_append (h : BlkHeap) (dst : BlkPtr) (m n : Nat) (src : Nat -> UInt8) :
    (h.fill dst m src).fill (dst + m) n (fun k => src (m + k)) = h.fill dst (m + n) src := by
  refine withByte_congr fun p => ?_
  simp only [Ptr.add_region, Ptr.add_off, fill_byte]
  split
  · rw [overwrite_append]
  · exact fill_byte_of_ne ‹_›

theorem fill_congr {src' : Nat -> UInt8} (hsame : ∀ k, k < n -> src k = src' k) :
    h.fill dst n src = h.fill dst n src' := by
  refine withByte_congr fun p => ?_
  split
  · exact overwrite_congr hsame rfl
  · rfl

theorem store_byte_eq_fill (h : BlkHeap) (p : BlkPtr) (b : UInt8) :
    h.store (.byte p) b = h.fill p 1 (fun _ => b) := by
  refine withByte_congr fun p' => ?_
  by_cases hp : p' = p
  · subst hp
    rw [Function.update_self, if_pos rfl, overwrite_of_mem (by omega) (by omega)]
  · rw [Function.update_of_ne hp]
    split
    · rename_i hregion
      have hoff : p'.off ≠ p.off := by
        intro hoff
        cases p'
        cases p
        simp_all
      rw [overwrite_of_not_mem (by omega), <- hregion]
    · rfl

theorem fill_setWindow (h : BlkHeap) (window : Nat -> UInt8) (hne : dst.region ≠ .blkShared) :
    (h.fill dst n src).setWindow window = (h.setWindow window).fill dst n src := by
  refine withByte_congr fun p => ?_
  by_cases hp : p.region = .blkShared
  · rw [if_pos hp, if_neg (by rw [hp]; exact Ne.symm hne)]
    exact (if_pos hp).symm
  · rw [if_neg hp]
    refine ite_congr rfl (fun _ => ?_) fun _ => (setWindow_byte hp).symm
    exact congrFun (congrArg (overwrite · dst.off n src)
      (funext fun k => (setWindow_byte (p := ⟨dst.region, k⟩) hne).symm)) p.off

theorem fill_window (h : BlkHeap) (hdst : dst.region = .blkShared) :
    ∃ window, h.fill dst n src = h.setWindow window := by
  refine ⟨overwrite (fun k => h.byte ⟨dst.region, k⟩) dst.off n src, withByte_congr fun p => ?_⟩
  rw [hdst]

theorem setWindow_setWindow (h : BlkHeap) (first second : Nat -> UInt8) :
    (h.setWindow first).setWindow second = h.setWindow second := by
  refine withByte_congr fun p => ?_
  exact ite_congr rfl (fun _ => rfl) fun hp => setWindow_byte hp

theorem eval_copyBytes (driver : Driver μ) {src : BlkPtr} (hne : src.region ≠ dst.region)
    (h : BlkHeap) (m : μ) :
    eval (handler driver) (copyBytes dst src n) (h, m) =
      ((), (h.fill dst n (fun k => h.byte (src + k)), m)) := by
  induction n generalizing dst src h with
  | zero => rw [fill_zero]; rfl
  | succ n ih =>
    have hstep : eval (handler driver) (copyBytes dst src (n + 1)) (h, m) =
        eval (handler driver) (copyBytes (dst + 1) (src + 1) n)
          (h.store (.byte dst) (h.byte src), m) := rfl
    have hne' : (src + 1).region ≠ (dst + 1).region := hne
    rw [hstep, ih hne', store_byte_eq_fill, Nat.add_comm n 1]
    have hkept : ∀ k, (h.fill dst 1 (fun _ => h.byte src)).byte (src + 1 + k) =
        h.byte (src + (1 + k)) := fun k => by
      rw [Ptr.add_add]
      exact fill_byte_of_ne hne
    have hfirst : h.fill dst 1 (fun _ => h.byte src) = h.fill dst 1 (fun k => h.byte (src + k)) :=
      fill_congr fun k hk => by rw [Nat.lt_one_iff.mp hk, Ptr.add_zero]
    simp only [hkept]
    rw [hfirst, fill_append h dst 1 n (fun k => h.byte (src + k))]

end Fill

/-! ## A driver over a flat array of sectors -/

/-- The contents of a medium, byte by byte. -/
abbrev Medium := Nat -> UInt8

/-- Sectors are read into the window of the medium and written from it; a call larger
than the window is refused. -/
def flatDriver : Driver Medium := fun call h m =>
  let start := call.sector.toNat * 512
  let bytes := call.count.toNat * 512
  if call.count > agentosBlkMediaDmaMaxSectors call.mediaId then
    (⟨3, 4, aosHostBlkErrOob.toUInt64, 0, 0⟩, h, m)
  else if call.op == aosHostBlkOpRead then
    (⟨3, 4, 0, 0, 0⟩, h.fill (hostDma call.mediaId) bytes (fun k => m (start + k)), m)
  else if call.op == aosHostBlkOpWrite then
    (⟨3, 4, 0, 0, 0⟩, h, overwrite m start bytes (fun k => h.byte (hostDma call.mediaId + k)))
  else
    (⟨3, 4, 0, 0, 0⟩, h, m)

section Transfer

variable {mediaId : UInt32} {sector : UInt64} {count : UInt32} {h : BlkHeap} {m : Medium}

theorem eval_hostCall {op : UInt32} {next : BlkHeap × Medium}
    (hdriver : flatDriver (hostCallWords mediaId op sector count) h m = (⟨3, 4, 0, 0, 0⟩, next)) :
    eval (handler flatDriver) (hostBlkCallStatus mediaId op sector count) (h, m) =
      (aosHostBlkOk, next) :=
  congrArg (fun r : HostReply × BlkHeap × Medium => ((hostBlkReply r.1 ⟨0, false⟩).1, r.2)) hdriver

theorem eval_hostRead (hcount : count <= agentosBlkMediaDmaMaxSectors mediaId) :
    eval (handler flatDriver) (hostBlkCallStatus mediaId aosHostBlkOpRead sector count) (h, m) =
      (aosHostBlkOk, (h.fill (hostDma mediaId) (count.toNat * 512)
        (fun k => m (sector.toNat * 512 + k)), m)) := by
  refine eval_hostCall ?_
  simp only [flatDriver, hostCallWords_mediaId, hostCallWords_count, hostCallWords_op,
    hostCallWords_sector, if_neg (UInt32.not_lt.mpr hcount), beq_self_eq_true, if_true]

theorem eval_hostWrite (hcount : count <= agentosBlkMediaDmaMaxSectors mediaId) :
    eval (handler flatDriver) (hostBlkCallStatus mediaId aosHostBlkOpWrite sector count) (h, m) =
      (aosHostBlkOk, (h, overwrite m (sector.toNat * 512) (count.toNat * 512)
        (fun k => h.byte (hostDma mediaId + k)))) := by
  have hop : (aosHostBlkOpWrite == aosHostBlkOpRead) = false := by decide
  refine eval_hostCall ?_
  simp only [flatDriver, hostCallWords_mediaId, hostCallWords_count, hostCallWords_op,
    hostCallWords_sector, if_neg (UInt32.not_lt.mpr hcount), hop, Bool.false_eq_true, if_false,
    beq_self_eq_true, if_true]

theorem eval_hostFlush :
    eval (handler flatDriver) (hostBlkCallStatus mediaId aosHostBlkOpFlush 0 0) (h, m) =
      (aosHostBlkOk, (h, m)) := by
  have hread : (aosHostBlkOpFlush == aosHostBlkOpRead) = false := by decide
  have hwrite : (aosHostBlkOpFlush == aosHostBlkOpWrite) = false := by decide
  refine eval_hostCall ?_
  simp only [flatDriver, hostCallWords_mediaId, hostCallWords_count, hostCallWords_op,
    if_neg (UInt32.not_lt.mpr (UInt32.zero_le)), hread, hwrite, Bool.false_eq_true, if_false]

theorem chunkSectors_fits (mediaId sectorsLeft : UInt32) :
    chunkSectors mediaId sectorsLeft <= agentosBlkMediaDmaMaxSectors mediaId :=
  UInt32.le_iff_toNat_le.mpr (chunkSectors_le mediaId sectorsLeft).2

/-- What is left of a transfer stays within the types of its bookkeeping. -/
def TransferFits (sector : UInt64) (byteOffset sectorsLeft : UInt32) : Prop :=
  byteOffset.toNat + sectorsLeft.toNat * 512 < 2 ^ 32 /\ sector.toNat + sectorsLeft.toNat < 2 ^ 64

theorem TransferFits.next (mediaId : UInt32) {byteOffset sectorsLeft : UInt32}
    (hfits : TransferFits sector byteOffset sectorsLeft) :
    (byteOffset + chunkSectors mediaId sectorsLeft * aosHostBlkSectorSize).toNat =
        byteOffset.toNat + (chunkSectors mediaId sectorsLeft).toNat * 512 /\
      (sector + (chunkSectors mediaId sectorsLeft).toUInt64).toNat =
        sector.toNat + (chunkSectors mediaId sectorsLeft).toNat /\
      (chunkSectors mediaId sectorsLeft).toNat * 512 +
        (sectorsLeft - chunkSectors mediaId sectorsLeft).toNat * 512 = sectorsLeft.toNat * 512 := by
  have hchunk := (chunkSectors_le mediaId sectorsLeft).1
  obtain ⟨hbytes, hsectors⟩ := hfits
  rw [UInt32.toNat_add, chunkBytes_toNat, UInt64.toNat_add, UInt32.toNat_toUInt64,
    chunkSectors_left]
  omega

theorem eval_collectRead {dma data : BlkPtr} (hne : dma.region ≠ data.region) (bytes : UInt32) :
    eval (handler flatDriver) (collectRead aosHostBlkOpRead dma data bytes) (h, m) =
      ((), (h.fill data bytes.toNat (fun k => h.byte (dma + k)), m)) :=
  eval_copyBytes flatDriver hne h m

theorem eval_stageWrite {dma data : BlkPtr} (hne : data.region ≠ dma.region) (bytes : UInt32) :
    eval (handler flatDriver) (stageWrite aosHostBlkOpWrite dma data bytes) (h, m) =
      ((), (h.fill dma bytes.toNat (fun k => h.byte (data + k)), m)) := by
  have hwrite : (aosHostBlkOpWrite == aosHostBlkOpWrite) = true := by decide
  rw [stageWrite, if_pos hwrite, eval_bind, bvCopy, eval_copyBytes flatDriver hne]
  rfl

section Chunk

variable {data : BlkPtr} {byteOffset sectorsLeft : UInt32} (mediaId : UInt32)

/-- One chunk of a read: the sectors arrive in the data area and in the window. -/
theorem eval_readChunk (sector : UInt64) (byteOffset : UInt32) (h : BlkHeap) (m : Medium)
    (hdata : data.region ≠ .blkShared) (hleft : sectorsLeft ≠ 0) :
    ∃ window, eval (handler flatDriver)
        (hostTransferLoop mediaId aosHostBlkOpRead data sector byteOffset sectorsLeft) (h, m) =
      eval (handler flatDriver)
        (hostTransferLoop mediaId aosHostBlkOpRead data
          (sector + (chunkSectors mediaId sectorsLeft).toUInt64)
          (byteOffset + chunkSectors mediaId sectorsLeft * aosHostBlkSectorSize)
          (sectorsLeft - chunkSectors mediaId sectorsLeft))
        ((h.setWindow window).fill (data + byteOffset.toNat)
          ((chunkSectors mediaId sectorsLeft).toNat * 512)
          (fun k => m (sector.toNat * 512 + k)), m) := by
  let window := h.fill (hostDma mediaId) ((chunkSectors mediaId sectorsLeft).toNat * 512)
    (fun k => m (sector.toNat * 512 + k))
  obtain ⟨bytes, hbytes⟩ : ∃ bytes, window = h.setWindow bytes := fill_window h rfl
  refine ⟨bytes, ?_⟩
  have hstage : ∀ dma p n, stageWrite aosHostBlkOpRead dma p n = .ret () := fun _ _ _ => rfl
  have hok : (aosHostBlkOk != aosHostBlkOk) = false := by decide
  have hne : (hostDma mediaId).region ≠ (data + byteOffset.toNat).region := Ne.symm hdata
  rw [hostTransferLoop, if_neg hleft]
  simp only [hstage, ret_bind, eval_bind, eval_hostRead (chunkSectors_fits mediaId sectorsLeft),
    hok, Bool.false_eq_true, if_false, eval_collectRead hne, chunkBytes_toNat]
  rw [<- hbytes]
  congr 2
  exact fill_congr fun k hk => fill_byte_add hk

/-- One chunk of a write: the sectors arrive on the medium and in the window. -/
theorem eval_writeChunk (sector : UInt64) (byteOffset : UInt32) (h : BlkHeap) (m : Medium)
    (hdata : data.region ≠ .blkShared) (hleft : sectorsLeft ≠ 0) :
    ∃ window, eval (handler flatDriver)
        (hostTransferLoop mediaId aosHostBlkOpWrite data sector byteOffset sectorsLeft) (h, m) =
      eval (handler flatDriver)
        (hostTransferLoop mediaId aosHostBlkOpWrite data
          (sector + (chunkSectors mediaId sectorsLeft).toUInt64)
          (byteOffset + chunkSectors mediaId sectorsLeft * aosHostBlkSectorSize)
          (sectorsLeft - chunkSectors mediaId sectorsLeft))
        (h.setWindow window, overwrite m (sector.toNat * 512)
          ((chunkSectors mediaId sectorsLeft).toNat * 512)
          (fun k => h.byte (data + byteOffset.toNat + k))) := by
  let window := h.fill (hostDma mediaId) ((chunkSectors mediaId sectorsLeft).toNat * 512)
    (fun k => h.byte (data + byteOffset.toNat + k))
  obtain ⟨bytes, hbytes⟩ : ∃ bytes, window = h.setWindow bytes := fill_window h rfl
  refine ⟨bytes, ?_⟩
  have hcollect : ∀ dma p n, collectRead aosHostBlkOpWrite dma p n = .ret () := fun _ _ _ => rfl
  have hok : (aosHostBlkOk != aosHostBlkOk) = false := by decide
  have hne : (data + byteOffset.toNat).region ≠ (hostDma mediaId).region := hdata
  rw [hostTransferLoop, if_neg hleft]
  simp only [hcollect, ret_bind, eval_bind, eval_hostWrite (chunkSectors_fits mediaId sectorsLeft),
    hok, Bool.false_eq_true, if_false, eval_stageWrite hne, chunkBytes_toNat]
  rw [<- hbytes]
  congr 2
  exact funext fun k => overwrite_congr (fun j hj => fill_byte_add hj) rfl

theorem setWindow_self (h : BlkHeap) : h.setWindow (fun k => h.byte ⟨.blkShared, k⟩) = h := by
  refine withByte_congr (d := h.byte) fun p => ?_
  split
  · rename_i hregion
    rw [<- hregion]
  · rfl

/-- The induction over the chunks of a transfer, for any state the chunks are applied
to: a property of the empty transfer that one chunk carries over. -/
theorem transferLoop_induction {motive : UInt64 -> UInt32 -> UInt32 -> Prop}
    (hdone : ∀ sector byteOffset, motive sector byteOffset 0)
    (hchunk : ∀ sector byteOffset sectorsLeft, sectorsLeft ≠ 0 ->
      TransferFits sector byteOffset sectorsLeft ->
      motive (sector + (chunkSectors mediaId sectorsLeft).toUInt64)
      (byteOffset + chunkSectors mediaId sectorsLeft * aosHostBlkSectorSize)
      (sectorsLeft - chunkSectors mediaId sectorsLeft) -> motive sector byteOffset sectorsLeft)
    (hfits : TransferFits sector byteOffset sectorsLeft) :
    motive sector byteOffset sectorsLeft := by
  induction hleft : sectorsLeft.toNat using Nat.strong_induction_on
    generalizing sector byteOffset sectorsLeft with
  | _ left ih =>
    by_cases hne : sectorsLeft = 0
    · rw [hne]
      exact hdone sector byteOffset
    · obtain ⟨hoffset, hsector, htotal⟩ := hfits.next mediaId
      have hrest := chunkSectors_left mediaId sectorsLeft
      have hpos := chunkSectors_pos mediaId hne
      have hle := (chunkSectors_le mediaId sectorsLeft).1
      refine hchunk sector byteOffset sectorsLeft hne hfits (ih _ ?_ ⟨?_, ?_⟩ rfl)
      · rw [hrest]
        omega
      · rw [hoffset, Nat.add_assoc, htotal]
        exact hfits.1
      · rw [hsector, hrest]
        have hend := hfits.2
        omega

/-- The chunks of a read leave what one read would, up to the contents of the window. -/
def ReadsAtOnce (mediaId : UInt32) (data : BlkPtr) (sector : UInt64)
    (byteOffset sectorsLeft : UInt32) : Prop :=
  ∀ (h : BlkHeap) (m : Medium), ∃ window, eval (handler flatDriver)
      (hostTransferLoop mediaId aosHostBlkOpRead data sector byteOffset sectorsLeft) (h, m) =
    (aosHostBlkOk, ((h.setWindow window).fill (data + byteOffset.toNat) (sectorsLeft.toNat * 512)
      (fun k => m (sector.toNat * 512 + k)), m))

theorem readsAtOnce (hdata : data.region ≠ .blkShared)
    (hfits : TransferFits sector byteOffset sectorsLeft) :
    ReadsAtOnce mediaId data sector byteOffset sectorsLeft := by
  refine transferLoop_induction (motive := ReadsAtOnce mediaId data) mediaId ?_ ?_ hfits
  · intro sector byteOffset h m
    refine ⟨fun k => h.byte ⟨.blkShared, k⟩, ?_⟩
    rw [hostTransferLoop, if_pos rfl, UInt32.toNat_zero, Nat.zero_mul, fill_zero, setWindow_self]
    rfl
  · intro sector byteOffset sectorsLeft hne hfits ih h m
    obtain ⟨hoffset, hsector, htotal⟩ := hfits.next mediaId
    obtain ⟨first, hfirst⟩ := eval_readChunk mediaId sector byteOffset h m hdata hne
    obtain ⟨window, hwindow⟩ := ih ((h.setWindow first).fill (data + byteOffset.toNat)
      ((chunkSectors mediaId sectorsLeft).toNat * 512) (fun k => m (sector.toNat * 512 + k))) m
    refine ⟨window, ?_⟩
    have hsource : (fun k => m ((sector.toNat + (chunkSectors mediaId sectorsLeft).toNat) * 512 +
        k)) = fun k => m (sector.toNat * 512 +
          ((chunkSectors mediaId sectorsLeft).toNat * 512 + k)) :=
      funext fun k => congrArg m (by rw [Nat.add_mul, Nat.add_assoc])
    have hcells : (data + byteOffset.toNat).region ≠ .blkShared := hdata
    rw [hfirst, hwindow, hoffset, hsector, <- Ptr.add_add, fill_setWindow _ _ hcells,
      setWindow_setWindow, hsource,
      fill_append (h.setWindow window) _ _ _ (fun k => m (sector.toNat * 512 + k)), htotal]

/-- The chunks of a write leave what one write would, up to the contents of the window. -/
def WritesAtOnce (mediaId : UInt32) (data : BlkPtr) (sector : UInt64)
    (byteOffset sectorsLeft : UInt32) : Prop :=
  ∀ (h : BlkHeap) (m : Medium), ∃ window, eval (handler flatDriver)
      (hostTransferLoop mediaId aosHostBlkOpWrite data sector byteOffset sectorsLeft) (h, m) =
    (aosHostBlkOk, (h.setWindow window, overwrite m (sector.toNat * 512)
      (sectorsLeft.toNat * 512) (fun k => h.byte (data + byteOffset.toNat + k))))

theorem writesAtOnce (hdata : data.region ≠ .blkShared)
    (hfits : TransferFits sector byteOffset sectorsLeft) :
    WritesAtOnce mediaId data sector byteOffset sectorsLeft := by
  refine transferLoop_induction (motive := WritesAtOnce mediaId data) mediaId ?_ ?_ hfits
  · intro sector byteOffset h m
    refine ⟨fun k => h.byte ⟨.blkShared, k⟩, ?_⟩
    rw [hostTransferLoop, if_pos rfl, UInt32.toNat_zero, Nat.zero_mul, overwrite_zero,
      setWindow_self]
    rfl
  · intro sector byteOffset sectorsLeft hne hfits ih h m
    obtain ⟨hoffset, hsector, htotal⟩ := hfits.next mediaId
    obtain ⟨first, hfirst⟩ := eval_writeChunk mediaId sector byteOffset h m hdata hne
    obtain ⟨window, hwindow⟩ := ih (h.setWindow first) (overwrite m (sector.toNat * 512)
      ((chunkSectors mediaId sectorsLeft).toNat * 512)
      (fun k => h.byte (data + byteOffset.toNat + k)))
    refine ⟨window, ?_⟩
    have hsource : (fun k => (h.setWindow first).byte (data + (byteOffset.toNat +
        (chunkSectors mediaId sectorsLeft).toNat * 512) + k)) = fun k =>
        h.byte (data + byteOffset.toNat + ((chunkSectors mediaId sectorsLeft).toNat * 512 + k)) := by
      funext k
      rw [Ptr.add_add, Ptr.add_add, Nat.add_assoc]
      exact setWindow_byte hdata
    rw [hfirst, hwindow, hoffset, hsector, setWindow_setWindow, hsource, Nat.add_mul,
      overwrite_append m _ _ _ (fun k => h.byte (data + byteOffset.toNat + k)), htotal]

end Chunk

end Transfer

/-! ## One request on both media -/

/-- Everything a client and the virtualizer share. -/
structure GuestPage where
  ring : RingKind -> BlkPtr -> RingIndices
  reqBuf : BlkPtr -> Nat -> BlkReq
  respBuf : BlkPtr -> Nat -> BlkResp
  info : BlkPtr -> StorageInfo
  signal : BlkPtr -> UInt32
  data : Nat -> UInt8

def BlkHeap.page (h : BlkHeap) : GuestPage :=
  ⟨h.ring, h.reqBuf, h.respBuf, h.info, h.signal, fun k => h.byte ⟨.shmem, k⟩⟩

def BlkHeap.setPage (h : BlkHeap) (page : GuestPage) : BlkHeap where
  ring := page.ring
  reqBuf := page.reqBuf
  respBuf := page.respBuf
  info := page.info
  signal := page.signal
  byte := fun p => if p.region = .shmem then page.data p.off else h.byte p

/-- The client sees the same page, and the RAM image holds the medium. -/
structure Mirror (disk : BlkPtr) (blocks : Nat) (host : BlkHeap × Medium)
    (ram : BlkHeap × Unit) : Prop where
  page : host.1.page = ram.1.page
  medium : ∀ k, k < blocks * 4096 -> host.2 k = ram.1.byte (disk + k)

/-- Ring, info and signal accesses. -/
def PageOp : BlkOp -> Prop
  | .load (.byte _) => False
  | .load _ => True
  | .store (.byte _) _ => False
  | .store _ _ => True
  | .fence => True
  | _ => False

section Mirror

variable {disk : BlkPtr} {blocks : Nat}

theorem Mirror.pageOp {host : BlkHeap × Medium} {ram : BlkHeap × Unit} {request : BlkOp}
    (hop : PageOp request) (h : Mirror disk blocks host ram) :
    (handler flatDriver request host).1 = (handler noDriver request ram).1 /\
      Mirror disk blocks (handler flatDriver request host).2 (handler noDriver request ram).2 := by
  have hpage := h.page
  simp only [BlkHeap.page, GuestPage.mk.injEq] at hpage
  obtain ⟨hring, hreq, hresp, hinfo, hsignal, hdata⟩ := hpage
  cases request with
  | load cell =>
    refine ⟨?_, h⟩
    cases cell with
    | byte p => exact absurd hop id
    | _ => simp only [handler, BlkHeap.load, hring, hreq, hresp, hinfo, hsignal]
  | store cell value =>
    refine ⟨rfl, ?_, ?_⟩
    · cases cell with
      | byte p => exact absurd hop id
      | ringZero kind q =>
        cases kind <;> simp only [handler, BlkHeap.store, BlkHeap.setRing, BlkHeap.page, hring,
          hreq, hresp, hinfo, hsignal, hdata]
      | _ =>
        simp only [handler, BlkHeap.store, BlkHeap.setRing, BlkHeap.page, hring, hreq, hresp,
          hinfo, hsignal, hdata]
    · cases cell with
      | byte p => exact absurd hop id
      | ringZero kind q => cases kind <;> exact h.medium
      | _ => exact h.medium
  | fence => exact ⟨rfl, h⟩
  | _ => exact absurd hop id

variable {hostHeap ramHeap : BlkHeap} {m : Medium} {cells : BlkPtr} {start n : Nat}

theorem Mirror.data_eq (h : Mirror disk blocks (hostHeap, m) (ramHeap, ()))
    (hcells : cells.region = .shmem) : hostHeap.byte cells = ramHeap.byte cells := by
  have hdata := congrFun (congrArg GuestPage.data h.page) cells.off
  obtain ⟨region, off⟩ := cells
  cases hcells
  exact hdata

/-- Two memories with the same page keep it if the same bytes are put there. -/
theorem page_withByte {h h' : BlkHeap} {b b' : BlkPtr -> UInt8} (hpage : h.page = h'.page)
    (hsame : ∀ k, b ⟨.shmem, k⟩ = b' ⟨.shmem, k⟩) :
    ({ h with byte := b } : BlkHeap).page = ({ h' with byte := b' } : BlkHeap).page := by
  simp only [BlkHeap.page, GuestPage.mk.injEq] at hpage ⊢
  obtain ⟨hring, hreq, hresp, hinfo, hsignal, _⟩ := hpage
  exact ⟨hring, hreq, hresp, hinfo, hsignal, funext hsame⟩

/-- Both media read the same bytes into the client's cells. -/
theorem Mirror.read (h : Mirror disk blocks (hostHeap, m) (ramHeap, ()))
    (hdisk : disk.region = .gRamDisk) (hcells : cells.region = .shmem)
    (hfits : start + n <= blocks * 4096) (window : Nat -> UInt8) :
    Mirror disk blocks ((hostHeap.setWindow window).fill cells n (fun k => m (start + k)), m)
      (ramHeap.fill cells n (fun k => ramHeap.byte (disk + start + k)), ()) := by
  refine ⟨page_withByte h.page fun k => ?_, fun k hk => ?_⟩
  · have hwindow : ∀ j, (hostHeap.setWindow window).byte ⟨.shmem, j⟩ = hostHeap.byte ⟨.shmem, j⟩ :=
      fun _ => setWindow_byte Region.noConfusion
    simp only [hcells, if_true, hwindow]
    refine overwrite_congr (fun j hj => ?_) (h.data_eq rfl)
    rw [Ptr.add_add]
    exact h.medium (start + j) (by omega)
  · have hother : (disk + k).region ≠ cells.region := by
      rw [hcells, Ptr.add_region, hdisk]
      exact Region.noConfusion
    rw [fill_byte_of_ne hother]
    exact h.medium k hk

/-- Both media take the same bytes from the client's cells. -/
theorem Mirror.write (h : Mirror disk blocks (hostHeap, m) (ramHeap, ()))
    (hdisk : disk.region = .gRamDisk) (hcells : cells.region = .shmem) (window : Nat -> UInt8) :
    Mirror disk blocks
      (hostHeap.setWindow window, overwrite m start n (fun k => hostHeap.byte (cells + k)))
      (ramHeap.fill (disk + start) n (fun k => ramHeap.byte (cells + k)), ()) := by
  refine ⟨page_withByte h.page fun k => ?_, fun k hk => ?_⟩
  · simp only [Ptr.add_region, hdisk, reduceCtorEq, if_false]
    exact h.data_eq rfl
  · have hbytes : ∀ j, hostHeap.byte (cells + j) = ramHeap.byte (cells + j) :=
      fun j => h.data_eq ((Ptr.add_region cells j).trans hcells)
    have hbyte := fill_byte ramHeap (disk + start) n (fun k => ramHeap.byte (cells + k))
      (disk.off + k)
    rw [Ptr.add_off, overwrite_shift] at hbyte
    refine Eq.trans ?_ hbyte.symm
    exact overwrite_congr (fun j _ => hbytes j) (h.medium k hk)

/-! ## The backends -/

variable {c : BlkVirtClient} {req : BlkReq}

section

variable (hvalid : requestValid c req = true)
  (hcode : req.code = aosBlkReqRead \/ req.code = aosBlkReqWrite)

include hvalid hcode

theorem eval_hostBlkTransfer (hcells : cells.region ≠ .blkShared) (mediaId : UInt32) (h : BlkHeap)
    (m : Medium) :
    (∃ window, eval (handler flatDriver) (hostBlkTransfer mediaId aosHostBlkOpRead
        (req.blockNumber * (aosBlkTransferSize / aosHostBlkSectorSize).toUInt64) cells
        (req.count.toUInt32 * aosBlkTransferSize)) (h, m) =
      (aosHostBlkOk, ((h.setWindow window).fill cells (req.count.toNat * 4096)
        (fun k => m (req.blockNumber.toNat * 4096 + k)), m))) /\
    (∃ window, eval (handler flatDriver) (hostBlkTransfer mediaId aosHostBlkOpWrite
        (req.blockNumber * (aosBlkTransferSize / aosHostBlkSectorSize).toUInt64) cells
        (req.count.toUInt32 * aosBlkTransferSize)) (h, m) =
      (aosHostBlkOk, (h.setWindow window, overwrite m (req.blockNumber.toNat * 4096)
        (req.count.toNat * 4096) (fun k => h.byte (cells + k))))) := by
  obtain ⟨_, hblocks, _⟩ := requestValid_transfer hvalid hcode
  obtain ⟨_, hsector, hsectors⟩ := requestValid_start hvalid hcode
  have hmedia := UInt32.toNat_lt c.mediaBlocks
  have hcount := UInt16.toNat_lt req.count
  have hfits : TransferFits
      (req.blockNumber * (aosBlkTransferSize / aosHostBlkSectorSize).toUInt64) 0
      ((req.count.toUInt32 * aosBlkTransferSize) / aosHostBlkSectorSize) := by
    rw [TransferFits, hsector, hsectors, UInt32.toNat_zero]
    omega
  obtain ⟨window, hread⟩ := readsAtOnce mediaId hcells hfits h m
  obtain ⟨window', hwrite⟩ := writesAtOnce mediaId hcells hfits h m
  rw [hsector, hsectors, Nat.mul_assoc, Nat.mul_assoc] at hread hwrite
  exact ⟨⟨window, hread⟩, window', hwrite⟩

theorem dataEnd_le : ¬ req.ioOrOffset + (req.count.toUInt32 * aosBlkTransferSize).toUInt64 >
      aosBlkDataBytes.toUInt64 := by
  obtain ⟨_, _, hcells⟩ := requestValid_transfer hvalid hcode
  have hsize : aosBlkDataBytes.toNat < 2 ^ 32 := UInt32.toNat_lt _
  refine UInt64.not_lt.mpr (UInt64.le_iff_toNat_le.mpr ?_)
  rw [UInt64.toNat_add, UInt32.toNat_toUInt64, UInt32.toNat_toUInt64, transferBytes_toNat]
  omega

theorem eval_serveRw (hdisk : disk.region = .gRamDisk) (hdata : c.data.region = .shmem)
    (h : BlkHeap) :
    eval (handler noDriver) (serveRw (aosBlkClientSetRamDisk c disk c.mediaBlocks) req false)
        (h, ()) =
      (.ok, (h.fill (c.data + req.ioOrOffset.toUInt32.toNat) (req.count.toNat * 4096)
        (fun k => h.byte (disk + req.blockNumber.toNat * 4096 + k)), ())) /\
    eval (handler noDriver) (serveRw (aosBlkClientSetRamDisk c disk c.mediaBlocks) req true)
        (h, ()) =
      (.ok, (h.fill (disk + req.blockNumber.toNat * 4096) (req.count.toNat * 4096)
        (fun k => h.byte (c.data + req.ioOrOffset.toUInt32.toNat + k)), ())) := by
  obtain ⟨hstart, _, _⟩ := requestValid_start hvalid hcode
  have hpresent : (isNull (aosBlkClientSetRamDisk c disk c.mediaBlocks).disk ||
      decide ((aosBlkClientSetRamDisk c disk c.mediaBlocks).diskBlocks <
        (aosBlkClientSetRamDisk c disk c.mediaBlocks).mediaBlocks)) = false := by
    simp [aosBlkClientSetRamDisk, isNull, hdisk]
  have hread : (disk + req.blockNumber.toNat * 4096).region ≠
      (c.data + req.ioOrOffset.toUInt32.toNat).region := by
    rw [Ptr.add_region, Ptr.add_region, hdisk, hdata]
    exact Region.noConfusion
  constructor
  · simp only [serveRw, hpresent, Bool.false_eq_true, if_false, eval_bind, aosCopy, hstart,
      transferBytes_toNat]
    have hcopy := eval_copyBytes noDriver (n := req.count.toNat * 4096) hread h ()
    exact congrArg (fun r : Unit × BlkHeap × Unit => (BlkRespStatus.ok, r.2)) hcopy
  · simp only [serveRw, hpresent, Bool.false_eq_true, if_false, if_true, eval_bind, aosCopy, hstart,
      transferBytes_toNat]
    have hcopy := eval_copyBytes noDriver (n := req.count.toNat * 4096) (Ne.symm hread) h ()
    exact congrArg (fun r : Unit × BlkHeap × Unit => (BlkRespStatus.ok, r.2)) hcopy

end

theorem sim_backend (hvalid : requestValid c req = true) (hdisk : disk.region = .gRamDisk)
    (hdata : c.data.region = .shmem) (ctx : BvClient) :
    Sim (handler flatDriver) (handler noDriver) (Mirror disk c.mediaBlocks.toNat)
      (fun result status => result.1 = status)
      (hostBlkBackend ctx c req) (serveRam (aosBlkClientSetRamDisk c disk c.mediaBlocks) req) := by
  rintro ⟨hostHeap, m⟩ ⟨ramHeap, ⟨⟩⟩ hmirror
  have hcells : (c.data + req.ioOrOffset.toUInt32.toNat).region = .shmem :=
    (Ptr.add_region _ _).trans hdata
  have hwindow : (c.data + req.ioOrOffset.toUInt32.toNat).region ≠ .blkShared := by
    rw [hcells]
    exact Region.noConfusion
  rcases requestValid_code hvalid with hcode | hcode
  · obtain ⟨_, hblocks, _⟩ := requestValid_transfer hvalid hcode
    obtain ⟨⟨readWindow, hread⟩, writeWindow, hwrite⟩ :=
      eval_hostBlkTransfer hvalid hcode hwindow ctx.mediaId hostHeap m
    obtain ⟨hramRead, hramWrite⟩ := eval_serveRw hvalid hcode hdisk hdata ramHeap
    have hend := dataEnd_le hvalid hcode
    rcases hcode with hcode | hcode
    · simp only [hostBlkBackend, serveRam, if_neg hend, hcode, beq_self_eq_true, if_true, eval_bind,
        hread, hramRead]
      exact ⟨rfl, hmirror.read hdisk hcells (by omega) readWindow⟩
    · have hnotRead : (aosBlkReqWrite == aosBlkReqRead) = false := by decide
      simp only [hostBlkBackend, serveRam, if_neg hend, hcode, hnotRead, Bool.false_eq_true,
        if_false, beq_self_eq_true, if_true, eval_bind, hwrite, hramWrite]
      exact ⟨rfl, hmirror.write hdisk hcells writeWindow⟩
  · obtain ⟨hflush, hread, hwrite⟩ : (req.code == aosBlkReqFlush || req.code == aosBlkReqBarrier) =
        true /\ (req.code == aosBlkReqRead) = false /\ (req.code == aosBlkReqWrite) = false := by
      rcases hcode with hcode | hcode <;> rw [hcode] <;> decide
    have hend : ¬ req.ioOrOffset + (req.count.toUInt32 * aosBlkTransferSize).toUInt64 >
        aosBlkDataBytes.toUInt64 := by
      simp only [requestValid, hread, hwrite, hflush, Bool.or_self, Bool.false_eq_true, if_false,
        if_true, Bool.and_eq_true, beq_iff_eq] at hvalid
      rw [hvalid.1.1, hvalid.2]
      decide
    simp only [hostBlkBackend, serveRam, if_neg hend, hread, hwrite, hflush, Bool.false_eq_true,
      if_false, if_true, eval_bind, eval_hostFlush]
    exact ⟨rfl, hmirror⟩

/-! ## The pump on both media -/

theorem ringPermits_pageOp (c : BlkVirtClient) : RingPermits PageOp c :=
  ⟨trivial, fun _ _ => trivial, fun _ _ _ => trivial, fun _ _ => trivial, fun _ _ _ => trivial⟩

/-- Code that only looks at the page runs alike on both sides. -/
theorem sim_page {α : Type} {Q : α -> Prop} {program : BlkM α}
    (hprogram : Ensures (anyAnswer (I := BlkIo)) PageOp Q program) :
    Sim (handler flatDriver) (handler noDriver) (Mirror disk blocks) (fun a b => a = b /\ Q a)
      program program :=
  sim_self hprogram fun _ _ _ hop h => h.pageOp hop

/-- The client served by the host backend, and the one with the RAM image. -/
def hostVirt (c : BlkVirtClient) : AosBlkVirt := ⟨[c], some .hostBlkBackend⟩

def ramVirt (disk : BlkPtr) (c : BlkVirtClient) : AosBlkVirt :=
  ⟨[aosBlkClientSetRamDisk c disk c.mediaBlocks], none⟩

/-- The client's program on both media, with the same answer. -/
abbrev Alike {α β : Type} (disk : BlkPtr) (c : BlkVirtClient) :
    BlkM (α × β) -> BlkM (α × β) -> Prop :=
  Sim (handler flatDriver) (handler noDriver) (Mirror disk c.mediaBlocks.toNat)
    fun result result' => result.1 = result'.1

section

variable (hdisk : disk.region = .gRamDisk) (hdata : c.data.region = .shmem)

include hdisk hdata

theorem sim_serveRequest (req : BlkReq) (ctx ctx' : BvClient) :
    Alike disk c
      (serveRequest callBackend (hostVirt c) c req ctx)
      (serveRequest callBackend (ramVirt disk c)
        (aosBlkClientSetRamDisk c disk c.mediaBlocks) req ctx') := by
  have hsame : requestValid (aosBlkClientSetRamDisk c disk c.mediaBlocks) req =
      requestValid c req := rfl
  unfold serveRequest
  rw [hsame]
  by_cases hvalid : requestValid c req = true
  · rw [if_pos hvalid, if_pos hvalid]
    have hpolicy : Ensures (anyAnswer (I := BlkIo)) PageOp _ (writeRefused c req) :=
      ensures_writeRefused trivial req
    refine (sim_page hpolicy).bind fun refused refused' hrefused => ?_
    cases hrefused.1
    cases refused with
    | true => exact sim_ret rfl
    | false =>
      refine sim_skip_left (a := ()) (fun _ => rfl) ?_
      refine (sim_backend hvalid hdisk hdata ctx).bind fun result status h => ?_
      cases h
      exact sim_ret rfl
  · rw [if_neg hvalid, if_neg hvalid]
    exact sim_ret rfl

theorem sim_pumpLoop (budget : Nat) (completed : UInt32) (ctx ctx' : BvClient) :
    Alike disk c
      (pumpLoop callBackend (hostVirt c) c budget completed ctx)
      (pumpLoop callBackend (ramVirt disk c)
        (aosBlkClientSetRamDisk c disk c.mediaBlocks) budget completed ctx') := by
  have hring := ringPermits_pageOp c
  induction budget generalizing completed ctx ctx' with
  | zero => exact sim_ret rfl
  | succ budget ih =>
    refine (sim_page (ensures_reqEmpty hring)).bind fun empty _ hempty => ?_
    cases hempty.1
    cases empty with
    | true => exact sim_ret rfl
    | false =>
      refine (sim_page (ensures_respFull hring c.capacity)).bind fun full _ hfull => ?_
      cases hfull.1
      cases full with
      | true => exact sim_ret rfl
      | false =>
        refine (sim_page (ensures_dequeueReq hring)).bind fun dequeued _ hdequeued => ?_
        cases hdequeued.1
        cases dequeued with
        | none => exact sim_ret rfl
        | some req =>
          refine (sim_serveRequest hdisk hdata req ctx ctx').bind fun result result' h => ?_
          obtain ⟨resp, ctx⟩ := result
          obtain ⟨resp', ctx'⟩ := result'
          cases h
          refine (sim_page (ensures_enqueueResp hring resp)).bind fun posted _ hposted => ?_
          cases hposted.1
          cases posted with
          | true => exact ih _ ctx ctx'
          | false => exact sim_ret rfl

theorem sim_aosBlkVirtPump (ctx ctx' : BvClient) :
    Alike disk c
      (aosBlkVirtPump callBackend (hostVirt c) ctx)
      (aosBlkVirtPump callBackend (ramVirt disk c) ctx') := by
  have hring := ringPermits_pageOp c
  have hclient : Alike disk c
      (pumpClient callBackend (hostVirt c) c 0 ctx)
      (pumpClient callBackend (ramVirt disk c)
        (aosBlkClientSetRamDisk c disk c.mediaBlocks) 0 ctx') := by
    unfold pumpClient
    by_cases hskip : (isNull c.info || isNull c.req || isNull c.resp || isNull c.data ||
        c.capacity == 0 || decide (c.capacity > aosBlkQueueCapacity)) = true
    · rw [if_pos hskip]
      refine Eq.subst (motive := fun p => Sim _ _ _ _ _ p) (if_pos hskip).symm ?_
      exact sim_ret rfl
    · rw [if_neg hskip]
      refine Eq.subst (motive := fun p => Sim _ _ _ _ _ p) (if_neg hskip).symm ?_
      refine (sim_page (ensures_ringValid hring.loadIndex .resp c.capacity)).bind
        fun respValid _ hresp => ?_
      cases hresp.1
      cases respValid with
      | false =>
        exact (sim_page (ensures_resetRing hring .resp)).bind fun _ _ _ => sim_ret rfl
      | true =>
        refine (sim_page (ensures_ringValid hring.loadIndex .req c.capacity)).bind
          fun reqValid _ hreq => ?_
        cases hreq.1
        cases reqValid with
        | false => exact (sim_page (ensures_resetRing hring .req)).bind fun _ _ _ => sim_ret rfl
        | true => exact sim_pumpLoop hdisk hdata _ 0 ctx ctx'
  exact hclient.bind fun result result' h => sim_ret h

end

end Mirror

/-! ## Whole runs -/

/-- The client rewrites its page as it likes, then the pump runs; and again.  The
result is the number of responses of each pump call, and the final state. -/
def guestRun {μ : Type} (driver : Driver μ) (v : AosBlkVirt) :
    List (GuestPage -> GuestPage) -> BvClient -> BlkHeap × μ -> List UInt32 × (BlkHeap × μ)
  | [], _, s => ([], s)
  | act :: rest, ctx, s =>
    let pumped := eval (handler driver) (aosBlkVirtPump callBackend v ctx)
      (s.1.setPage (act s.1.page), s.2)
    let run := guestRun driver v rest pumped.1.2 pumped.2
    (pumped.1.1 :: run.1, run.2)

theorem page_setPage (h : BlkHeap) (page : GuestPage) : (h.setPage page).page = page := by
  simp [BlkHeap.page, BlkHeap.setPage]

theorem Mirror.setPage {disk : BlkPtr} {blocks : Nat} {host : BlkHeap × Medium}
    {ram : BlkHeap × Unit} (h : Mirror disk blocks host ram) (hdisk : disk.region = .gRamDisk)
    (act : GuestPage -> GuestPage) :
    Mirror disk blocks (host.1.setPage (act host.1.page), host.2)
      (ram.1.setPage (act ram.1.page), ram.2) := by
  refine ⟨?_, fun k hk => (h.medium k hk).trans ?_⟩
  · rw [page_setPage, page_setPage, h.page]
  · have hother : (disk + k).region ≠ .shmem := by
      rw [Ptr.add_region, hdisk]
      exact Region.noConfusion
    exact (if_neg hother).symm

theorem guestRun_mirror {disk : BlkPtr} {c : BlkVirtClient} (hdisk : disk.region = .gRamDisk)
    (hdata : c.data.region = .shmem) (acts : List (GuestPage -> GuestPage)) (ctx ctx' : BvClient)
    {host : BlkHeap × Medium} {ram : BlkHeap × Unit}
    (h : Mirror disk c.mediaBlocks.toNat host ram) :
    (guestRun flatDriver (hostVirt c) acts ctx host).1 =
        (guestRun noDriver (ramVirt disk c) acts ctx' ram).1 /\
      Mirror disk c.mediaBlocks.toNat (guestRun flatDriver (hostVirt c) acts ctx host).2
        (guestRun noDriver (ramVirt disk c) acts ctx' ram).2 := by
  induction acts generalizing ctx ctx' host ram with
  | nil => exact ⟨rfl, h⟩
  | cons act rest ih =>
    obtain ⟨hcount, hnext⟩ := sim_aosBlkVirtPump hdisk hdata ctx ctx' _ _ (h.setPage hdisk act)
    obtain ⟨hcounts, hfinal⟩ := ih _ _ hnext
    exact ⟨List.cons_eq_cons.mpr ⟨hcount, hcounts⟩, hfinal⟩

/-- The queues of a client as both backends use them. -/
def mediumClient (i : Nat) (mediaBlocks : UInt32) : BlkVirtClient :=
  aosBlkClientSetMedia (aosBlkClientBind shmem (.ofNat i) .zero) mediaBlocks

/-- Whatever a client does to its page between pump calls, both backends produce the same
responses, page and medium, for each client with its window and for media of any size. -/
theorem hostBackend_refines_ram {i : Nat} (hi : i < aosBlkMaxClients) (mediaBlocks : UInt32)
    (ctx ctx' : BvClient) (acts : List (GuestPage -> GuestPage)) (host : BlkHeap × Medium)
    (ram : BlkHeap × Unit) (hpage : host.1.page = ram.1.page)
    (hmedium : ∀ k, k < mediaBlocks.toNat * 4096 ->
      host.2 k = ram.1.byte (gRamDisk (.ofNat i) + k)) :
    let hostEnd := guestRun flatDriver
      ⟨[mediumClient i mediaBlocks], some .hostBlkBackend⟩ acts ctx host
    let ramEnd := guestRun noDriver
      ⟨[aosBlkClientSetRamDisk (mediumClient i mediaBlocks) (gRamDisk (.ofNat i))
        mediaBlocks], none⟩ acts ctx' ram
    hostEnd.1 = ramEnd.1 /\ hostEnd.2.1.page = ramEnd.2.1.page /\
      ∀ k, k < mediaBlocks.toNat * 4096 ->
        hostEnd.2.2 k = ramEnd.2.1.byte (gRamDisk (.ofNat i) + k) := by
  have hdata : (mediumClient i mediaBlocks).data.region = .shmem := by
    rw [mediumClient, clientBind_not_null hi]
    rfl
  have hmirror : Mirror (gRamDisk (.ofNat i)) (mediumClient i mediaBlocks).mediaBlocks.toNat
      host ram := ⟨hpage, hmedium⟩
  obtain ⟨hcounts, hfinal⟩ := guestRun_mirror rfl hdata acts ctx ctx' hmirror
  exact ⟨hcounts, hfinal.page, hfinal.medium⟩

/-- The client of the secondary medium publishes a write of eight blocks, more than its
window holds. -/
def publishWrite (page : GuestPage) : GuestPage :=
  let req := (mediumClient 1 8).req
  { page with
    ring := fun kind q => if kind = .req /\ q = req then ⟨0, 1⟩ else page.ring kind q
    reqBuf := Function.update page.reqBuf req fun _ => ⟨aosBlkReqWrite, 0, 0, 8, 9⟩ }

theorem hostBackend_refines_ram_write : chunkSectors 1 64 = 63 /\ (guestRun noDriver
      ⟨[aosBlkClientSetRamDisk (mediumClient 1 8) (gRamDisk 1) 8], none⟩ [publishWrite] .zero
      (.zero, ())).1 = [1] /\
    (guestRun flatDriver ⟨[mediumClient 1 8], some .hostBlkBackend⟩ [publishWrite]
      { BvClient.zero with mediaId := 1 } (.zero, fun _ => 0)).1 = [1] := by
  have hram : (guestRun noDriver
      ⟨[aosBlkClientSetRamDisk (mediumClient 1 8) (gRamDisk 1) 8], none⟩ [publishWrite] .zero
      (.zero, ())).1 = [1] := by decide +kernel
  have hsame := hostBackend_refines_ram (i := 1) (by decide) 8 { BvClient.zero with mediaId := 1 }
    .zero [publishWrite] (.zero, fun _ => 0) (.zero, ()) rfl fun _ _ => rfl
  exact ⟨by decide, hram, hsame.1.trans hram⟩

end AgentOs.BlkVirt
