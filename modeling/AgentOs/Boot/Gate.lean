import AgentOs.Boot.Bundle
import AgentOs.Library.Program
import AgentOs.Sel4.Kernel

/-!
# The boot gate

The root task validates its trust anchor, checks the manifest and its signature, and loads the
protection domains one after the other.  The steps with the kernel and the loader are requests.
-/

namespace AgentOs.Boot

open Library Prog Sel4 Option

/-! ## The trust anchor -/

def aosAnchorVersion : UInt32 := 1
def aosAnchorNone : UInt32 := 0
def aosAnchorVendor : UInt32 := 1
def aosAnchorMok : UInt32 := 2
def aosAnchorHardware : UInt32 := 3

structure AosAnchorKey where
  pubkey : List.Vector UInt8 32
  present : UInt32

structure AosAnchorState where
  version : UInt32
  tier : UInt32
  vendor : AosAnchorKey
  mok : AosAnchorKey

inductive AnchorStatus where
  | ok | errVersion | errNull | errTier | errKey
  deriving DecidableEq

def aosAnchorValidate (state : Option AosAnchorState) : AnchorStatus :=
  match state with
  | none => .errNull
  | some state =>
    if state.version ≠ aosAnchorVersion then .errVersion
    else if state.tier = aosAnchorNone then .ok
    else if state.tier = aosAnchorVendor then
      if state.vendor.present = 0 then .errKey else .ok
    else if state.tier = aosAnchorMok then
      if state.mok.present = 0 then .errKey else .ok
    else if state.tier = aosAnchorHardware then .ok
    else .errTier

/-- An unknown tier gates. -/
def aosAnchorGatesBoot (state : Option AosAnchorState) : Bool :=
  match state with
  | none => true
  | some state =>
    if state.tier = aosAnchorNone \/ state.tier = aosAnchorHardware then false else true

/-- The macros of the generated header. -/
structure CompiledAnchor where
  tier : UInt32
  vendor : AosAnchorKey
  mok : AosAnchorKey

def CompiledAnchor.state (compiled : CompiledAnchor) : AosAnchorState :=
  ⟨aosAnchorVersion, compiled.tier, compiled.vendor, compiled.mok⟩

/-- The compiled-in state, unless it is refused. -/
def bootInitTrustAnchor (compiled : CompiledAnchor) : Option AosAnchorState :=
  if aosAnchorValidate (some compiled.state) ≠ .ok then none else some compiled.state

/-! ## The manifest -/

/-- The two primitives.  A signature is checked against a message and a key. -/
structure Crypto where
  sha256 : List UInt8 -> List.Vector UInt8 32
  ed25519Verify : List UInt8 -> List UInt8 -> List.Vector UInt8 32 -> Bool

/-- Offset of the signature, which closes the section. -/
def sigOff (m : Sections) : UInt64 := m.manifestSize - 64

def manifestSignature (m : Sections) : List UInt8 :=
  (m.viewAt (m.pdManifestStart + sigOff m)).slice 0 64

/-- What the signature is checked over: as many bytes as the low half of the offset. -/
def signedLength (m : Sections) : Nat := (sigOff m).toUInt32.toNat

def signedBytes (m : Sections) : List UInt8 := m.manifest.slice 0 (signedLength m)

def signatureOk (crypto : Crypto) (m : Sections) (anchor : AosAnchorState) : Bool :=
  (anchor.vendor.present != 0 &&
      crypto.ed25519Verify (manifestSignature m) (signedBytes m) anchor.vendor.pubkey) ||
    (anchor.mok.present != 0 &&
      crypto.ed25519Verify (manifestSignature m) (signedBytes m) anchor.mok.pubkey)

def bootVerifyManifest (crypto : Crypto) (m : Sections) (anchor : AosAnchorState) : Bool :=
  if m.manifestSize = 0 then false
  else if aosBootManifestValidate (some m.manifest) m.manifestSize.toUInt32 ≠ .ok then false
  else if signatureOk crypto m anchor then true
  else if aosAnchorGatesBoot (some anchor) then false
  else true

/-! ## The boot sequence -/

/-- A protection domain of the system description, as far as its image is concerned. -/
structure PdDesc where
  name : View
  elfPath : View
  stackSize : UInt32

/-- What the root task does to load and start domain `i`. -/
inductive RootOp where
  | earlierSteps
  | pdVspaceCreate (i : Nat)
  | guestVspace (i : Nat)
  | utAllocIpcFrame (i : Nat)
  | utAllocCnode (i : Nat)
  | pdVspaceLoadElf (pd : PdDesc) (vspace elfData : UInt64) (elfSize stackSize : UInt32)
  | startPd (i : Nat)

/-- `pdVspaceCreate` gives the new address space, `pdVspaceLoadElf` says whether it had no
error, and the steps that can end the boot say whether it goes on. -/
abbrev RootAns : RootOp -> Type
  | .pdVspaceCreate _ => Option UInt64
  | .utAllocIpcFrame _ => Sel4Error
  | .utAllocCnode _ => Sel4Error
  | _ => Bool

abbrev RootIo : Interface := ⟨RootOp, RootAns⟩

abbrev RootM := Prog RootIo

/-- How the boot ends.  The scan for an image may not end at all. -/
inductive BootEnd where
  | refused | started | scanning
  deriving DecidableEq

/-- The check of one image against the bundle and the manifest fails. -/
def imageCheckFails (crypto : Crypto) (m : Sections) (pd : PdDesc) (elfData elfSize : UInt64) :
    Bool :=
  let inBundle := bootElfInVerifiedBundle m elfData elfSize
  let digestRc :=
    if inBundle then bootVerifyPdDigest crypto.sha256 m pd.name elfData elfSize else .noBytes
  !inBundle || digestRc != .ok

section Boot

variable (crypto : Crypto) (m : Sections) (info : ExtraBootInfo) (fuel : Nat)
  (anchor : AosAnchorState) (manifestTrusted : Bool)

def startPds : Nat -> List PdDesc -> RootM BootEnd
  | _, [] => pure .started
  | i, pd :: rest => do
    let created : Option UInt64 <- perform (I := RootIo) (.pdVspaceCreate i)
    match created with
    | none => startPds (i + 1) rest
    | some vspace =>
      let goesOn : Bool <- perform (I := RootIo) (.guestVspace i)
      if !goesOn then pure .refused
      else
        let frameErr : Sel4Error <- perform (I := RootIo) (.utAllocIpcFrame i)
        if frameErr ≠ .noError then startPds (i + 1) rest
        else
          let cnodeErr : Sel4Error <- perform (I := RootIo) (.utAllocCnode i)
          if cnodeErr ≠ .noError then startPds (i + 1) rest
          else
            match bootFindElf m info fuel pd.elfPath, bootElfSize m info fuel pd.elfPath with
            | some elfData, some elfSize =>
              -- a failed check is reported under every tier and refuses under a gating one
              if manifestTrusted && imageCheckFails crypto m pd elfData elfSize &&
                  aosAnchorGatesBoot (some anchor) then pure .refused
              else
                let loaded : Bool <- perform (I := RootIo)
                  (.pdVspaceLoadElf pd vspace elfData elfSize.toUInt32 pd.stackSize)
                if !loaded then startPds (i + 1) rest
                else
                  let goesOn : Bool <- perform (I := RootIo) (.startPd i)
                  if !goesOn then pure .refused else startPds (i + 1) rest
            | _, _ => pure .scanning

def rootTaskMain (compiled : CompiledAnchor) (pds : List PdDesc) : RootM BootEnd :=
  match bootInitTrustAnchor compiled with
  | none => pure .refused
  | some anchor => do
    let goesOn : Bool <- perform (I := RootIo) .earlierSteps
    if !goesOn then pure .refused
    else if m.bundleSize > 0 then
      let manifestTrusted := bootVerifyManifest crypto m anchor
      if !manifestTrusted then pure .refused
      else startPds crypto m info fuel anchor manifestTrusted 0 pds
    else pure .refused

end Boot

/-! ## What reaches the loader -/

/-- A key that was compiled in. -/
inductive PresentKey (compiled : CompiledAnchor) : List.Vector UInt8 32 -> Prop where
  | vendor : compiled.vendor.present ≠ 0 -> PresentKey compiled compiled.vendor.pubkey
  | mok : compiled.mok.present ≠ 0 -> PresentKey compiled compiled.mok.pubkey

/-- The signature over the signed part of the manifest verifies under a compiled-in key. -/
def ManifestSigned (crypto : Crypto) (m : Sections) (compiled : CompiledAnchor) : Prop :=
  ∃ key, PresentKey compiled key /\
    crypto.ed25519Verify (manifestSignature m) (signedBytes m) key = true

/-- The image handed to the loader lies in the bundle and has the digest of the entry that
its domain's name finds, and the entry is in the signed part. -/
structure SignedImage (crypto : Crypto) (m : Sections) (compiled : CompiledAnchor) (pd : PdDesc)
    (elfData : UInt64) (elfSize : UInt32) : Prop where
  start : m.pdBundleStart.toNat <= elfData.toNat
  stop : elfData.toNat + elfSize.toNat <= m.pdBundleEnd.toNat
  signed : ManifestSigned crypto m compiled
  entry : ∃ off,
    aosBootManifestFind (some m.manifest) m.manifestSize.toUInt32 (some pd.name) = some off /\
    crypto.sha256 ((m.viewAt elfData).slice 0 elfSize.toNat) =
      (readManifestEntry (m.manifest.drop off)).sha256 /\
    off + manifestEntrySize <= signedLength m

section Proofs

variable {crypto : Crypto} {m : Sections} {info : ExtraBootInfo} {fuel : Nat}
  {compiled : CompiledAnchor} {pd : PdDesc}

theorem manifestSigned_of_verified (hgate : aosAnchorGatesBoot (some compiled.state) = true)
    (hverified : bootVerifyManifest crypto m compiled.state = true) :
    ManifestSigned crypto m compiled := by
  unfold bootVerifyManifest at hverified
  split at hverified
  · cases hverified
  split at hverified
  · cases hverified
  split at hverified
  · rename_i hsig
    rw [signatureOk, Bool.or_eq_true, Bool.and_eq_true, Bool.and_eq_true, bne_iff_ne,
      bne_iff_ne] at hsig
    rcases hsig with ⟨hpresent, hverify⟩ | ⟨hpresent, hverify⟩
    · exact ⟨_, .vendor hpresent, hverify⟩
    · exact ⟨_, .mok hpresent, hverify⟩
  · cases hverified

/-- The entries end before the signature, whatever part of the section's size survives the
conversion to 32 bits. -/
theorem entry_signed {name : View} {off : Nat}
    (hfind : aosBootManifestFind (some m.manifest) m.manifestSize.toUInt32 (some name) =
      some off) : off + manifestEntrySize <= signedLength m := by
  obtain ⟨view, ⟨⟩, hshape, i, hi, rfl⟩ := aosBootManifestFind_inside hfind
  have hfits := hshape.fits
  have hsize := m.manifestSize.toNat_lt
  have hlength : signedLength m = m.manifestSize.toUInt32.toNat - 64 := by
    rw [signedLength, sigOff, UInt64.toUInt32_sub, UInt32.toNat_sub_of_le]
    · rfl
    · rw [UInt32.le_iff_toNat_le]
      exact Nat.le_trans (by decide : (UInt64.toUInt32 64).toNat <= 64) (by omega)
  rw [hlength, manifestEntryOffset, manifestEntrySize]
  omega

theorem signedImage_of_check {elfData elfSize : UInt64} (hsigned : ManifestSigned crypto m compiled)
    (hcheck : imageCheckFails crypto m pd elfData elfSize = false) :
    SignedImage crypto m compiled pd elfData elfSize.toUInt32 := by
  unfold imageCheckFails at hcheck
  rw [Bool.or_eq_false_iff, Bool.not_eq_false'] at hcheck
  obtain ⟨hin, hdigest⟩ := hcheck
  rw [hin, if_pos rfl, bne_eq_false_iff_eq] at hdigest
  obtain ⟨hstart, hstop⟩ := bootElfInVerifiedBundle_true hin
  obtain ⟨off, hfind, hsha⟩ := bootVerifyPdDigest_ok hdigest
  have hlow : elfSize.toUInt32.toNat <= elfSize.toNat := by
    rw [UInt64.toNat_toUInt32]
    exact Nat.mod_le _ _
  exact ⟨hstart, by omega, hsigned, off, hfind, hsha, entry_signed hfind⟩

/-- What is asked of the loader. -/
def LoadsSigned (crypto : Crypto) (m : Sections) (compiled : CompiledAnchor) : RootOp -> Prop
  | .pdVspaceLoadElf pd _ elfData elfSize _ => SignedImage crypto m compiled pd elfData elfSize
  | _ => True

theorem startPds_ensures (hgate : aosAnchorGatesBoot (some compiled.state) = true)
    (hsigned : ManifestSigned crypto m compiled) (i : Nat) (pds : List PdDesc) :
    Ensures (I := RootIo) anyAnswer (LoadsSigned crypto m compiled) (fun _ => True)
      (startPds crypto m info fuel compiled.state true i pds) := by
  induction pds generalizing i with
  | nil => trivial
  | cons pd rest ih =>
    have hnext := ih (i + 1)
    rw [startPds]
    refine ⟨trivial, fun created _ => ?_⟩
    cases created with
    | none => exact hnext
    | some vspace =>
      refine ⟨trivial, fun goesOn _ => ?_⟩
      cases goesOn with
      | false => trivial
      | true =>
        refine ⟨trivial, fun frameErr _ => ?_⟩
        show Ensures (I := RootIo) _ _ _ (ite _ _ _)
        split
        · exact hnext
        refine ⟨trivial, fun cnodeErr _ => ?_⟩
        show Ensures (I := RootIo) _ _ _ (ite _ _ _)
        split
        · exact hnext
        split
        · rename_i elfData elfSize _ _
          rw [hgate, Bool.true_and, Bool.and_true]
          split
          · trivial
          rename_i hcheck
          rw [Bool.not_eq_true] at hcheck
          refine ⟨signedImage_of_check hsigned hcheck, fun loaded _ => ?_⟩
          cases loaded with
          | false => exact hnext
          | true =>
            refine ⟨trivial, fun goesOn _ => ?_⟩
            cases goesOn with
            | false => trivial
            | true => exact hnext
        · trivial

theorem gatesBoot_of_tier (htier : compiled.tier = aosAnchorVendor \/ compiled.tier = aosAnchorMok) :
    aosAnchorGatesBoot (some compiled.state) = true := by
  have hstate : compiled.state.tier = compiled.tier := rfl
  refine if_neg ?_
  rw [hstate]
  rcases htier with htier | htier
  · rw [htier]
    decide
  · rw [htier]
    decide

theorem rootTaskMain_ensures (hgate : aosAnchorGatesBoot (some compiled.state) = true)
    (pds : List PdDesc) :
    Ensures (I := RootIo) anyAnswer (LoadsSigned crypto m compiled) (fun _ => True)
      (rootTaskMain crypto m info fuel compiled pds) := by
  unfold rootTaskMain
  split
  · trivial
  rename_i anchor hinit
  have hanchor : anchor = compiled.state := by
    unfold bootInitTrustAnchor at hinit
    rw [ite_none_left_eq_some] at hinit
    exact (some.inj hinit.2).symm
  subst hanchor
  refine ⟨trivial, fun goesOn _ => ?_⟩
  cases goesOn with
  | false => trivial
  | true =>
    show Ensures (I := RootIo) _ _ _ (ite _ _ _)
    split
    · show Ensures (I := RootIo) _ _ _ (ite _ _ _)
      cases hverified : bootVerifyManifest crypto m compiled.state with
      | false => trivial
      | true => exact startPds_ensures hgate (manifestSigned_of_verified hgate hverified) 0 pds
    · trivial

end Proofs

/-- Under a gating tier every image that reaches the loader lies in the bundle and has the
digest that a signed entry of the manifest records for its domain. -/
theorem gatedBoot_loadsSigned (crypto : Crypto) (m : Sections) (info : ExtraBootInfo) (fuel : Nat)
    (compiled : CompiledAnchor) (pds : List PdDesc)
    (htier : compiled.tier = aosAnchorVendor \/ compiled.tier = aosAnchorMok)
    {trace : Prog.Trace RootIo} {result : BootEnd}
    (hrun : Prog.Run (rootTaskMain crypto m info fuel compiled pds) trace result)
    {pd : PdDesc} {vspace elfData : UInt64} {elfSize stackSize : UInt32} {loaded : Bool}
    (hload : ⟨.pdVspaceLoadElf pd vspace elfData elfSize stackSize, loaded⟩ ∈ trace) :
    SignedImage crypto m compiled pd elfData elfSize :=
  (rootTaskMain_ensures (gatesBoot_of_tier htier) pds).requests hrun _ hload

/-- A vendor key. -/
def vendorAnchor (key : UInt8) : CompiledAnchor :=
  ⟨aosAnchorVendor, ⟨List.Vector.replicate 32 key, 1⟩, ⟨List.Vector.replicate 32 0, 0⟩⟩

def sumCrypto : Crypto where
  sha256 := GenPdBundle.sumDigest
  ed25519Verify signature body key := signature = (GenPdBundle.sumSign key body).toList

def controllerPd : PdDesc where
  name := View.ofList (asBytes "controller")
  elfPath := View.ofList (asBytes "controller.elf")
  stackSize := 4096

/-- Everything the root task asks for succeeds. -/
def allGood : (request : RootOp) -> Unit -> RootAns request × Unit
  | .earlierSteps, _ => (true, ())
  | .pdVspaceCreate _, _ => (some 1, ())
  | .guestVspace _, _ => (true, ())
  | .utAllocIpcFrame _, _ => (.noError, ())
  | .utAllocCnode _, _ => (.noError, ())
  | .pdVspaceLoadElf _ _ _ _ _, _ => (true, ())
  | .startPd _, _ => (true, ())

def controllerBoot : RootM BootEnd :=
  rootTaskMain sumCrypto (GenPdBundle.oneImageSections "controller") ⟨0, 0⟩ 0 (vendorAnchor 1)
    [controllerPd]

/-- The pointer and the size of an image that is loaded. -/
def loadOf : Prog.Event RootIo -> Option (UInt64 × UInt32)
  | ⟨.pdVspaceLoadElf _ _ elfData elfSize _, _⟩ => some (elfData, elfSize)
  | _ => none

/-- The image is loaded, and under another key the manifest is refused. -/
theorem gatedBoot_loadsSigned_controller :
    (∃ trace result pd vspace stackSize loaded, Prog.Run controllerBoot trace result /\
      ⟨.pdVspaceLoadElf pd vspace 0x1080 4 stackSize, loaded⟩ ∈ trace /\
      SignedImage sumCrypto (GenPdBundle.oneImageSections "controller") (vendorAnchor 1) pd
        0x1080 4) /\
    bootVerifyManifest sumCrypto (GenPdBundle.oneImageSections "controller")
      (vendorAnchor 2).state = false := by
  refine ⟨?_, by decide +kernel⟩
  have hload : (eventAt (I := RootIo) allGood 5 controllerBoot ()).bind loadOf =
      some (0x1080, 4) := by
    decide +kernel
  obtain ⟨⟨request, loaded⟩, hevent, hload⟩ := bind_eq_some_iff.mp hload
  obtain ⟨trace, hrun, hmem⟩ := run_eval_of_eventAt (I := RootIo) allGood hevent
  cases request with
  | pdVspaceLoadElf pd vspace elfData elfSize stackSize =>
    cases hload
    have hsigned := gatedBoot_loadsSigned sumCrypto (GenPdBundle.oneImageSections "controller")
      ⟨0, 0⟩ 0 (vendorAnchor 1) [controllerPd] (.inl rfl) hrun hmem
    exact ⟨trace, _, pd, vspace, stackSize, loaded, hrun, hmem, hsigned⟩
  | _ => cases hload

end AgentOs.Boot
