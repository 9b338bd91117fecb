import AgentOs.Boot.Manifest

/-!
# Finding an image at boot

The root task carries the images of the other domains in a section of its own, next to the
manifest.  It looks an image up by its path, falls back to the data the kernel hands over, and
checks the digest.  Pointers are addresses, with 0 for null, and their arithmetic wraps.
-/

namespace AgentOs.Boot

open Library

/-- The memory of the root task and the four linker symbols. -/
structure Sections where
  memory : UInt64 -> UInt8
  pdBundleStart : UInt64
  pdBundleEnd : UInt64
  pdManifestStart : UInt64
  pdManifestEnd : UInt64

namespace Sections

/-- What a pointer shows. -/
def viewAt (m : Sections) (p : UInt64) : View := fun i => m.memory (p + UInt64.ofNat i)

def bundle (m : Sections) : View := m.viewAt m.pdBundleStart

def manifest (m : Sections) : View := m.viewAt m.pdManifestStart

def bundleSize (m : Sections) : UInt64 :=
  if m.pdBundleEnd > m.pdBundleStart then m.pdBundleEnd - m.pdBundleStart else 0

def manifestSize (m : Sections) : UInt64 :=
  if m.pdManifestEnd > m.pdManifestStart then m.pdManifestEnd - m.pdManifestStart else 0

end Sections

/-! ## The embedded bundle -/

def agentosImageMagicBundle : UInt64 := 0x4147454E544F5300

/-- Whether the path ends in `.elf`, as far as it was scanned. -/
def endsInElf (elfPath : View) (pathLen : Nat) : Bool :=
  pathLen >= 4 && elfPath (pathLen - 4) == 0x2e && elfPath (pathLen - 3) == 0x65 &&
    elfPath (pathLen - 2) == 0x6c && elfPath (pathLen - 1) == 0x66

/-- The length of the path without its suffix.  At most 48 bytes of the path are scanned. -/
def stemLength (elfPath : View) : Nat :=
  let pathLen := elfPath.strnlen 48
  if endsInElf elfPath pathLen then pathLen - 4 else pathLen

def bundleNameMatch (elfPath name : View) : Bool :=
  let pathLen := stemLength elfPath
  let i := min pathLen 48
  (List.range i).all (fun k => elfPath k == name k) && (i == pathLen && name i == 0)

/-- The record of the bundle whose name matches the path. -/
def bundleEntry (m : Sections) (elfPath : View) : Option View :=
  if m.bundleSize < 64 then none
  else if m.bundle.u64 0 ≠ agentosImageMagicBundle then none
  else
    let entryAt (i : Nat) : View := m.bundle.drop ((m.bundle.u32 32).toNat + 64 * i)
    ((List.range' 0 (m.bundle.u32 12).toNat).find? fun i =>
      bundleNameMatch elfPath (entryAt i)).map entryAt

def bootFindElfInBundle (m : Sections) (elfPath : View) : UInt64 :=
  match bundleEntry m elfPath with
  | some entry => m.pdBundleStart + (entry.u32 48).toUInt64
  | none => 0

def bootElfSizeInBundle (m : Sections) (elfPath : View) : UInt64 :=
  match bundleEntry m elfPath with
  | some entry => (entry.u32 52).toUInt64
  | none => 0

/-! ## The kernel's boot information -/

/-- The boot information frame and the length of the data behind it. -/
structure ExtraBootInfo where
  bi : UInt64
  extraLen : UInt64

def agentosBootinfoHeaderElf : UInt64 := 0x4147

/-- The bounded comparison of a path with the 32-byte name of a region. -/
def regionNameMatch (elfPath pdName : View) : Nat -> Bool
  | 0 => true
  | n + 1 =>
    if elfPath 0 ≠ 0 \/ pdName 0 ≠ 0 then
      elfPath 0 == pdName 0 && regionNameMatch (elfPath.drop 1) (pdName.drop 1) n
    else true

/-- The scan of the chunks.  `none` says that the scan has not ended, as a length close to
the top of the address space makes the pointer stand still. -/
def scanChunks (m : Sections) (elfPath : View) (stop : UInt64) : Nat -> UInt64 -> Option (Option View)
  | 0, _ => none
  | fuel + 1, p =>
    if p + 16 <= stop then
      let hdr := m.viewAt p
      let len := hdr.u64 8
      if len < 16 then some none
      else if hdr.u64 0 = agentosBootinfoHeaderElf /\ len >= 64 /\
          regionNameMatch elfPath (hdr.drop 16) 32 = true then some (some (hdr.drop 16))
      else scanChunks m elfPath stop fuel (p + ((len + 7) &&& ~~~7))
    else some none

/-- The region for a path in the data behind the boot information. -/
def bootInfoRegion (m : Sections) (info : ExtraBootInfo) (fuel : Nat) (elfPath : View) :
    Option (Option View) :=
  if info.bi = 0 \/ info.extraLen = 0 then some none
  else scanChunks m elfPath (info.bi + 4096 + info.extraLen) fuel (info.bi + 4096)

def bootFindElf (m : Sections) (info : ExtraBootInfo) (fuel : Nat) (elfPath : View) :
    Option UInt64 :=
  let fromBundle := bootFindElfInBundle m elfPath
  if fromBundle ≠ 0 then some fromBundle
  else
    match bootInfoRegion m info fuel elfPath with
    | none => none
    | some none => some 0
    | some (some er) => some (info.bi + 4096 + er.u64 32)

def bootElfSize (m : Sections) (info : ExtraBootInfo) (fuel : Nat) (elfPath : View) :
    Option UInt64 :=
  let sz := bootElfSizeInBundle m elfPath
  if sz ≠ 0 then some sz
  else
    match bootInfoRegion m info fuel elfPath with
    | none => none
    | some none => some 0
    | some (some er) => some (er.u64 40)

/-! ## The checks of one image -/

inductive PdDigest where
  | ok | noBytes | noEntry | mismatch
  deriving DecidableEq

/-- The digest covers as many bytes as the low half of the size says. -/
def bootVerifyPdDigest (sha256 : List UInt8 -> List.Vector UInt8 32) (m : Sections)
    (pdName : View) (elfData elfSize : UInt64) : PdDigest :=
  if elfData = 0 \/ elfSize = 0 then .noBytes
  else
    match aosBootManifestFind (some m.manifest) m.manifestSize.toUInt32 (some pdName) with
    | none => .noEntry
    | some entry =>
      let digest := sha256 ((m.viewAt elfData).slice 0 elfSize.toUInt32.toNat)
      if digest ≠ (readManifestEntry (m.manifest.drop entry)).sha256 then .mismatch else .ok

def bootElfInVerifiedBundle (m : Sections) (elfData elfSize : UInt64) : Bool :=
  if elfData = 0 \/ elfSize = 0 then false
  else if elfData.toNat + elfSize.toNat >= 2 ^ 64 then false
  else decide (elfData >= m.pdBundleStart) && decide (elfData + elfSize <= m.pdBundleEnd)

theorem bootElfInVerifiedBundle_true {m : Sections} {elfData elfSize : UInt64}
    (hin : bootElfInVerifiedBundle m elfData elfSize = true) :
    m.pdBundleStart.toNat <= elfData.toNat /\
      elfData.toNat + elfSize.toNat <= m.pdBundleEnd.toNat := by
  unfold bootElfInVerifiedBundle at hin
  split at hin
  · cases hin
  split at hin
  · cases hin
  rename_i hoverflow
  rw [Bool.and_eq_true, decide_eq_true_iff, decide_eq_true_iff] at hin
  have hstart := UInt64.le_iff_toNat_le.mp hin.1
  have hend := UInt64.le_iff_toNat_le.mp hin.2
  rw [UInt64.toNat_add, Nat.mod_eq_of_lt (Nat.not_le.mp hoverflow)] at hend
  exact ⟨hstart, hend⟩

theorem bootVerifyPdDigest_ok {sha256 : List UInt8 -> List.Vector UInt8 32} {m : Sections}
    {pdName : View} {elfData elfSize : UInt64}
    (hok : bootVerifyPdDigest sha256 m pdName elfData elfSize = .ok) :
    ∃ entry, aosBootManifestFind (some m.manifest) m.manifestSize.toUInt32 (some pdName) =
        some entry /\
      sha256 ((m.viewAt elfData).slice 0 elfSize.toUInt32.toNat) =
        (readManifestEntry (m.manifest.drop entry)).sha256 := by
  unfold bootVerifyPdDigest at hok
  split at hok
  · cases hok
  split at hok
  · cases hok
  rename_i entry hfind
  simp only [ne_eq, ite_not] at hok
  split at hok
  · rename_i heq
    exact ⟨entry, hfind, heq⟩
  · cases hok

end AgentOs.Boot
