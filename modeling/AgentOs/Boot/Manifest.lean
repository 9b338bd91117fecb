import AgentOs.Library.Bytes

/-!
# The boot manifest

The build writes one record for every protection domain, its name and the digest of its image,
between a header and a signature.  The root task checks the shape of the blob and looks a domain
up by its name.  The writer is `boot_manifest.rs` and the reader `boot_manifest.c`.
-/

namespace AgentOs.Boot

open Library List Option

def aosBootManifestMagic : UInt64 := 0x314e414d42534f41
def aosBootManifestVersion : UInt32 := 1
def aosBootManifestMaxPds : UInt32 := 32
def aosBootManifestNameLen : Nat := 48
def manifestHeaderSize : Nat := 32
def manifestEntrySize : Nat := 80

/-- The fixed header, the same for the writer and the reader. -/
structure ManifestHeader where
  magic : UInt64
  version : UInt32
  count : UInt32
  reserved : List.Vector UInt8 16

/-- The name of one domain, not necessarily terminated, and the digest of its image. -/
structure ManifestEntry where
  name : List.Vector UInt8 48
  sha256 : List.Vector UInt8 32

/-! ## The writer -/

/-- The bytes of a string of the build. -/
def asBytes (text : String) : List UInt8 := text.toUTF8.data.toList

def ManifestEntry.new (name : String) (sha256 : List.Vector UInt8 32) :
    Except String ManifestEntry :=
  let bytes := asBytes name
  if hlong : bytes.length > aosBootManifestNameLen then
    .error ("PD name '" ++ name ++ "' is " ++ toString bytes.length ++
      " bytes, exceeds the 48-byte manifest name field")
  else .ok ⟨⟨padTo 48 bytes, length_padTo (Nat.not_lt.mp hlong)⟩, sha256⟩

def ManifestEntry.toBytes (e : ManifestEntry) : List UInt8 := e.name.toList ++ e.sha256.toList

def ManifestHeader.toBytes (hdr : ManifestHeader) : List UInt8 :=
  toLe 8 hdr.magic.toNat ++ toLe 4 hdr.version.toNat ++ toLe 4 hdr.count.toNat ++
    hdr.reserved.toList

/-- The header a manifest of so many entries gets. -/
def manifestHeader (entries : List ManifestEntry) : ManifestHeader where
  magic := aosBootManifestMagic
  version := aosBootManifestVersion
  count := .ofNat entries.length
  reserved := List.Vector.replicate 16 0

/-- What the signature covers. -/
def manifestBody (entries : List ManifestEntry) : List UInt8 :=
  (manifestHeader entries).toBytes ++ entries.flatMap ManifestEntry.toBytes

def buildSignedManifest (sign : List UInt8 -> List.Vector UInt8 64) (entries : List ManifestEntry) :
    Except String (List UInt8) :=
  if entries = [] then
    .error ("boot manifest must have at least one PD entry " ++
      "(empty manifest is a rejection, not a skip)")
  else if entries.length > aosBootManifestMaxPds.toNat then
    .error ("boot manifest has " ++ toString entries.length ++
      " entries, exceeds AOS_BOOT_MANIFEST_MAX_PDS (32)")
  else .ok (manifestBody entries ++ (sign (manifestBody entries)).toList)

/-! ## The reader -/

inductive ManifestStatus where
  | ok | errTooShort | errMagic | errVersion | errCountZero | errCountMax | errTruncated
  | errBadArgs
  deriving DecidableEq

def readManifestHeader (blob : View) : ManifestHeader :=
  ⟨blob.u64 0, blob.u32 8, blob.u32 12, blob.field 16 16⟩

def readManifestEntry (entry : View) : ManifestEntry := ⟨entry.field 0 48, entry.field 48 32⟩

/-- The size a manifest of so many entries needs, widened before it is computed. -/
def requiredSize (count : UInt32) : UInt64 := 32 + count.toUInt64 * 80 + 64

def aosBootManifestValidate (blob : Option View) (len : UInt32) : ManifestStatus :=
  match blob with
  | none => .errBadArgs
  | some blob =>
    if len < 32 then .errTooShort
    else
      let hdr := readManifestHeader blob
      if hdr.magic ≠ aosBootManifestMagic then .errMagic
      else if hdr.version ≠ aosBootManifestVersion then .errVersion
      else if hdr.count = 0 then .errCountZero
      else if hdr.count > aosBootManifestMaxPds then .errCountMax
      else if requiredSize hdr.count > len.toUInt64 then .errTruncated
      else .ok

/-- The comparison of one stored name with the key: the bytes of the key, then zeros up to
the end of the field. -/
def manifestNameMatch (field name : View) (nameLen : Nat) : Bool :=
  (range nameLen).all (fun j => field j == name j) &&
    (range' nameLen (48 - nameLen)).all (fun k => field k == 0)

/-- Offset of an entry from the start of the blob. -/
def manifestEntryOffset (i : Nat) : Nat := 32 + 80 * i

/-- The pointer to the entry, as an offset from the blob.  The checks of the shape are
made again. -/
def aosBootManifestFind (blob : Option View) (len : UInt32) (name : Option View) : Option Nat :=
  match blob, name with
  | some blob, some name =>
    if len < 32 then none
    else
      let hdr := readManifestHeader blob
      if hdr.magic ≠ aosBootManifestMagic \/ hdr.version ≠ aosBootManifestVersion \/
          hdr.count = 0 \/ hdr.count > aosBootManifestMaxPds then none
      else if requiredSize hdr.count > len.toUInt64 then none
      else
        let nameLen := name.strnlen 48
        if name nameLen ≠ 0 then none
        else
          ((range' 0 hdr.count.toNat).find? fun i =>
            manifestNameMatch (blob.drop (manifestEntryOffset i)) name nameLen).map
              manifestEntryOffset
  | _, _ => none

/-! ## The shape of an accepted blob -/

/-- What both readers check before they look at an entry. -/
structure ManifestShape (blob : View) (len : UInt32) : Prop where
  magic : blob.u64 0 = aosBootManifestMagic
  version : blob.u32 8 = aosBootManifestVersion
  countPos : 0 < (blob.u32 12).toNat
  countMax : (blob.u32 12).toNat <= 32
  fits : 32 + 80 * (blob.u32 12).toNat + 64 <= len.toNat

theorem requiredSize_toNat {count : UInt32} (hmax : count.toNat <= 32) :
    (requiredSize count).toNat = 32 + 80 * count.toNat + 64 := by
  simp only [requiredSize, UInt64.toNat_add, UInt64.toNat_mul, UInt32.toNat_toUInt64,
    UInt64.reduceToNat]
  omega

theorem count_pos_iff (count : UInt32) : 0 < count.toNat ↔ count ≠ 0 := by
  rw [Nat.pos_iff_ne_zero, ne_eq, ne_eq, <- UInt32.toNat_inj]
  rfl

variable {len : UInt32}

theorem requiredSize_fits_iff {count : UInt32} (hmax : count <= aosBootManifestMaxPds) :
    ¬requiredSize count > len.toUInt64 ↔ 32 + 80 * count.toNat + 64 <= len.toNat := by
  have hsize := requiredSize_toNat (UInt32.le_iff_toNat_le.mp hmax)
  rw [gt_iff_lt, UInt64.lt_iff_toNat_lt, hsize, UInt32.toNat_toUInt64, Nat.not_lt]

variable {blob : View}

theorem manifestShape_iff : ManifestShape blob len ↔ ¬len < 32 /\ blob.u64 0 = aosBootManifestMagic /\
      blob.u32 8 = aosBootManifestVersion /\ blob.u32 12 ≠ 0 /\
      blob.u32 12 <= aosBootManifestMaxPds /\ ¬requiredSize (blob.u32 12) > len.toUInt64 := by
  constructor
  · intro h
    have hmax : blob.u32 12 <= aosBootManifestMaxPds := UInt32.le_iff_toNat_le.mpr h.countMax
    refine ⟨?_, h.magic, h.version, (count_pos_iff _).mp h.countPos, hmax,
      (requiredSize_fits_iff hmax).mpr h.fits⟩
    have hfits := h.fits
    have hsmall : (32 : UInt32).toNat = 32 := rfl
    rw [UInt32.lt_iff_toNat_lt]
    omega
  · rintro ⟨-, hmagic, hversion, hzero, hmax, hfits⟩
    exact ⟨hmagic, hversion, (count_pos_iff _).mpr hzero, UInt32.le_iff_toNat_le.mp hmax,
      (requiredSize_fits_iff hmax).mp hfits⟩

theorem reject_eq_ok_iff {c : Prop} [Decidable c] {err rest : ManifestStatus} (herr : err ≠ .ok) :
    (if c then err else rest) = .ok ↔ ¬c /\ rest = .ok := by
  split
  · simp_all
  · simp_all

theorem aosBootManifestValidate_ok_iff :
    aosBootManifestValidate (some blob) len = .ok ↔ ManifestShape blob len := by
  rw [manifestShape_iff]
  unfold aosBootManifestValidate
  simp only
  rw [reject_eq_ok_iff (by decide), reject_eq_ok_iff (by decide), reject_eq_ok_iff (by decide),
    reject_eq_ok_iff (by decide), reject_eq_ok_iff (by decide), reject_eq_ok_iff (by decide)]
  simp only [readManifestHeader, ne_eq, not_not, gt_iff_lt, UInt32.not_lt, and_true]

/-- The entry the key selects in a blob of the right shape. -/
def manifestSearch (blob name : View) : Option Nat :=
  ((range' 0 (blob.u32 12).toNat).find? fun i =>
    manifestNameMatch (blob.drop (manifestEntryOffset i)) name (name.strnlen 48)).map
      manifestEntryOffset

variable {name : View}

theorem aosBootManifestFind_some_iff {off : Nat} :
    aosBootManifestFind (some blob) len (some name) = some off ↔
      ManifestShape blob len /\ name (name.strnlen 48) = 0 /\
        manifestSearch blob name = some off := by
  rw [manifestShape_iff]
  unfold aosBootManifestFind manifestSearch
  simp only
  rw [ite_none_left_eq_some, ite_none_left_eq_some, ite_none_left_eq_some,
    ite_none_left_eq_some]
  simp only [readManifestHeader, ne_eq, not_or, not_not, gt_iff_lt, UInt32.not_lt, and_assoc]

/-- Only a blob that passes the check has entries, and the pointer is to one of them. -/
theorem aosBootManifestFind_inside {blob name : Option View} {off : Nat}
    (hfind : aosBootManifestFind blob len name = some off) :
    ∃ view, blob = some view /\ ManifestShape view len /\
      ∃ i < (view.u32 12).toNat, off = manifestEntryOffset i := by
  cases blob with
  | none => cases hfind
  | some view =>
    cases name with
    | none => cases hfind
    | some name =>
      obtain ⟨hshape, -, hsearch⟩ := aosBootManifestFind_some_iff.mp hfind
      obtain ⟨i, hi, rfl⟩ := map_eq_some_iff.mp hsearch
      have hmem := mem_of_find?_eq_some hi
      rw [mem_range'_1] at hmem
      exact ⟨view, rfl, hshape, i, by omega, rfl⟩

/-! ## Names -/

variable {key : List UInt8}

/-- A stored name matches the key that fills its field, zeros included. -/
theorem manifestNameMatch_iff {field : View} (hname : name.CString key) :
    manifestNameMatch field name key.length = true ↔ field.Holds 0 (padTo 48 key) := by
  have hbytes : field.Holds 0 key ↔ ∀ j < key.length, field j = name j := by
    rw [View.Holds, <- hname.slice_eq, View.length_slice, View.slice_eq_iff]
    simp only [Nat.zero_add]
  rw [padTo, View.holds_append, hbytes, View.holds_replicate, Nat.zero_add, manifestNameMatch,
    Bool.and_eq_true, List.all_eq_true, List.all_eq_true]
  simp only [mem_range, beq_iff_eq]

/-- A key that does not fit the field ends the search before it starts. -/
theorem key_end_iff (hname : name.CString key) : name (name.strnlen 48) = 0 ↔ key.length <= 48 := by
  rw [hname.strnlen_eq]
  rcases Nat.lt_or_ge 48 key.length with hlong | hfits
  · rw [Nat.min_eq_right (Nat.le_of_lt hlong)]
    exact iff_of_false (hname.ne_zero hlong) (Nat.not_le.mpr hlong)
  · rw [Nat.min_eq_left hfits]
    exact iff_of_true hname.end_eq hfits

/-! ## What is written is read back -/

theorem length_manifestEntry_toBytes (e : ManifestEntry) : e.toBytes.length = 80 := by
  rw [ManifestEntry.toBytes, length_append, List.Vector.toList_length,
    List.Vector.toList_length]

theorem length_manifestHeader_toBytes (hdr : ManifestHeader) : hdr.toBytes.length = 32 := by
  simp only [ManifestHeader.toBytes, length_append, length_toLe, List.Vector.toList_length]

theorem readManifestHeader_eq {hdr : ManifestHeader} (hholds : blob.Holds 0 hdr.toBytes) :
    readManifestHeader blob = hdr := by
  simp only [ManifestHeader.toBytes, View.holds_append, length_append, length_toLe,
    Nat.zero_add, Nat.reduceAdd] at hholds
  obtain ⟨⟨⟨hmagic, hversion⟩, hcount⟩, hreserved⟩ := hholds
  unfold readManifestHeader
  rw [hmagic.u64_eq, hversion.u32_eq, hcount.u32_eq, hreserved.field_eq]

theorem readManifestEntry_eq {entry : View} {e : ManifestEntry}
    (hholds : entry.Holds 0 e.toBytes) : readManifestEntry entry = e := by
  rw [ManifestEntry.toBytes, View.holds_append, List.Vector.toList_length] at hholds
  unfold readManifestEntry
  rw [hholds.1.field_eq, hholds.2.field_eq]

/-- A view of a manifest with these entries, whatever its signature. -/
structure HoldsManifest (blob : View) (entries : List ManifestEntry) : Prop where
  body : blob.Holds 0 (manifestBody entries)
  nonempty : entries ≠ []
  max : entries.length <= 32

section HoldsManifest

variable {blob : View} {entries : List ManifestEntry}

section

variable (h : HoldsManifest blob entries)

include h

theorem HoldsManifest.header :
    blob.u64 0 = aosBootManifestMagic /\ blob.u32 8 = aosBootManifestVersion /\
      blob.u32 12 = .ofNat entries.length := by
  have hheader := readManifestHeader_eq (View.holds_append.mp h.body).1
  unfold readManifestHeader manifestHeader at hheader
  obtain ⟨hmagic, hversion, hcount, -⟩ := ManifestHeader.mk.inj hheader
  exact ⟨hmagic, hversion, hcount⟩

theorem HoldsManifest.count : (blob.u32 12).toNat = entries.length := by
  obtain ⟨-, -, hcount⟩ := h.header
  have hmax := h.max
  rw [hcount, UInt32.toNat_ofNat']
  omega

theorem HoldsManifest.entry {i : Nat} (hi : i < entries.length) :
    (blob.drop (manifestEntryOffset i)).Holds 0 entries[i].toBytes := by
  have htable := (View.holds_append.mp h.body).2
  rw [length_manifestHeader_toBytes, Nat.zero_add] at htable
  rw [View.holds_drop, Nat.add_zero]
  exact htable.flatMap length_manifestEntry_toBytes hi

theorem HoldsManifest.shape (hlen : 32 + 80 * entries.length + 64 <= len.toNat) : ManifestShape blob
    len where
  magic := h.header.1
  version := h.header.2.1
  countPos := h.count ▸ length_pos_iff.mpr h.nonempty
  countMax := h.count ▸ h.max
  fits := h.count ▸ hlen

/-- Lookup by a key finds the first entry that stores it. -/
theorem HoldsManifest.find (hlen : 32 + 80 * entries.length + 64 <= len.toNat)
    (hname : name.CString key) :
    (aosBootManifestFind (some blob) len (some name)).map
        (fun off => readManifestEntry (blob.drop off)) =
      entries.find? fun e => e.name.toList = padTo 48 key := by
  have hshape := h.shape hlen
  rcases Nat.lt_or_ge 48 key.length with hlong | hfits
  · -- neither side accepts a key that is longer than the field
    have hnone : aosBootManifestFind (some blob) len (some name) = none := by
      refine Option.eq_none_iff_forall_ne_some.mpr fun off hfind => ?_
      have hend := (aosBootManifestFind_some_iff.mp hfind).2.1
      exact absurd ((key_end_iff hname).mp hend) (Nat.not_le.mpr hlong)
    rw [hnone, Option.map_none, eq_comm, find?_eq_none]
    intro e _ heq
    have hlength := congrArg List.length (of_decide_eq_true heq)
    rw [List.Vector.toList_length, padTo, length_append] at hlength
    omega
  · have hsearch : aosBootManifestFind (some blob) len (some name) = manifestSearch blob name := by
      refine Option.ext fun off => ?_
      rw [aosBootManifestFind_some_iff]
      exact ⟨fun hfind => hfind.2.2, fun hfind => ⟨hshape, (key_end_iff hname).mpr hfits, hfind⟩⟩
    rw [hsearch, manifestSearch, hname.strnlen_eq, Nat.min_eq_left hfits, h.count, Option.map_map]
    refine Eq.trans (find?_range'_map (g := id) fun i hi => ?_) Option.map_id_apply
    rw [Nat.zero_add]
    have hentry := h.entry hi
    refine ⟨?_, readManifestEntry_eq hentry⟩
    rw [Bool.eq_iff_iff, manifestNameMatch_iff hname, decide_eq_true_iff]
    rw [ManifestEntry.toBytes, View.holds_append] at hentry
    constructor
    · intro hkey
      refine hentry.1.unique hkey ?_
      rw [length_padTo hfits, List.Vector.toList_length]
    · intro heq
      exact heq ▸ hentry.1

end

end HoldsManifest

/-! ## From the build's list to the root task's lookup -/

/-- The entry made for one domain. -/
def Stores (named : String × List.Vector UInt8 32) (e : ManifestEntry) : Prop :=
  e.name.toList = padTo 48 (asBytes named.1) /\ e.sha256 = named.2

theorem manifestEntry_new_ok {name : String} (hfits : (asBytes name).length <= 48)
    (sha256 : List.Vector UInt8 32) :
    ∃ e, ManifestEntry.new name sha256 = .ok e /\ Stores (name, sha256) e := by
  have hshort : ¬(asBytes name).length > aosBootManifestNameLen := Nat.not_lt.mpr hfits
  refine ⟨_, dif_neg hshort, rfl, rfl⟩

theorem manifestEntries_ok {named : List (String × List.Vector UInt8 32)}
    (hfits : ∀ e ∈ named, (asBytes e.1).length <= 48) :
    ∃ entries, named.mapM (fun e => ManifestEntry.new e.1 e.2) = .ok entries /\
      List.Forall₂ Stores named entries := by
  induction named with
  | nil => exact ⟨[], rfl, .nil⟩
  | cons head rest ih =>
    obtain ⟨hhead, hrest⟩ := forall_mem_cons.mp hfits
    obtain ⟨e, hnew, hstores⟩ := manifestEntry_new_ok hhead head.2
    obtain ⟨entries, hmapM, hall⟩ := ih hrest
    refine ⟨e :: entries, ?_, .cons hstores hall⟩
    rw [mapM_cons, hnew, hmapM]
    rfl

theorem buildSignedManifest_ok {sign : List UInt8 -> List.Vector UInt8 64}
    {entries : List ManifestEntry} (hne : entries ≠ []) (hmax : entries.length <= 32) :
    buildSignedManifest sign entries =
      .ok (manifestBody entries ++ (sign (manifestBody entries)).toList) := by
  have hfew : ¬entries.length > aosBootManifestMaxPds.toNat := Nat.not_lt.mpr hmax
  rw [buildSignedManifest, if_neg hne, if_neg hfew]

theorem length_manifestBody (entries : List ManifestEntry) :
    (manifestBody entries).length = 32 + 80 * entries.length := by
  rw [manifestBody, length_append, length_manifestHeader_toBytes,
    length_flatMap_of_size length_manifestEntry_toBytes]

/-- The first stored entry for a key belongs to the first domain with that name. -/
theorem find?_stored {named : List (String × List.Vector UInt8 32)} {entries : List ManifestEntry}
    (hstored : List.Forall₂ Stores named entries) (hnul : ∀ e ∈ named, 0 ∉ asBytes e.1)
    (hkey : 0 ∉ key) :
    (entries.find? fun e => e.name.toList = padTo 48 key).map ManifestEntry.sha256 =
      (named.find? fun e => asBytes e.1 = key).map Prod.snd := by
  induction hstored with
  | nil => rfl
  | @cons head e rest entries hhead hrest ih =>
    obtain ⟨hhead_nul, hrest_nul⟩ := forall_mem_cons.mp hnul
    have hmatch : (e.name.toList = padTo 48 key) ↔ asBytes head.1 = key := by
      rw [hhead.1, padTo_inj hhead_nul hkey]
    rw [find?_cons, find?_cons, decide_eq_decide.mpr hmatch]
    cases decide (asBytes head.1 = key) with
    | true => exact congrArg some hhead.2
    | false => exact ih hrest_nul

/-- The manifest the build writes is accepted, every key finds the digest of the first domain
with that name and nothing else, and of any bytes only an accepted blob yields an entry, which
lies in its table. -/
theorem bootManifest_roundTrip (sign : List UInt8 -> List.Vector UInt8 64)
    (named : List (String × List.Vector UInt8 32)) (hne : named ≠ []) (hmax : named.length <= 32)
    (hnames : ∀ e ∈ named, 0 ∉ asBytes e.1 /\ (asBytes e.1).length <= 48) :
    (∃ entries blob, named.mapM (fun e => ManifestEntry.new e.1 e.2) = .ok entries /\
      buildSignedManifest sign entries = .ok blob /\
      ∀ view : View, view.Holds 0 blob ->
        aosBootManifestValidate (some view) (.ofNat blob.length) = .ok /\
        ∀ (name : View) (key : List UInt8), name.CString key ->
          (aosBootManifestFind (some view) (.ofNat blob.length) (some name)).map
              (fun off => (readManifestEntry (view.drop off)).sha256) =
            (named.find? fun e => asBytes e.1 = key).map Prod.snd) /\
    ∀ (blob name : Option View) (len : UInt32) (off : Nat),
      aosBootManifestFind blob len name = some off ->
        aosBootManifestValidate blob len = .ok /\ ∃ view, blob = some view /\
          manifestHeaderSize <= off /\ off + manifestEntrySize <=
            manifestHeaderSize + manifestEntrySize * (readManifestHeader view).count.toNat := by
  constructor
  · obtain ⟨entries, hentries, hstored⟩ := manifestEntries_ok fun e he => (hnames e he).2
    have hcount : entries.length = named.length := hstored.length_eq.symm
    have hentries_ne : entries ≠ [] := by
      rintro rfl
      exact hne (length_eq_zero_iff.mp hcount.symm)
    have hentries_max : entries.length <= 32 := hcount ▸ hmax
    refine ⟨entries, _, hentries, buildSignedManifest_ok hentries_ne hentries_max, ?_⟩
    intro view hview
    have hholds : HoldsManifest view entries :=
      ⟨(View.holds_append.mp hview).1, hentries_ne, hentries_max⟩
    have hlen : 32 + 80 * entries.length + 64 <= (UInt32.ofNat (manifestBody entries ++
        (sign (manifestBody entries)).toList).length).toNat := by
      rw [length_append, length_manifestBody, List.Vector.toList_length, UInt32.toNat_ofNat']
      omega
    refine ⟨aosBootManifestValidate_ok_iff.mpr (hholds.shape hlen), ?_⟩
    intro name key hname
    have hfind := congrArg (Option.map ManifestEntry.sha256) (hholds.find hlen hname)
    rw [Option.map_map] at hfind
    exact hfind.trans (find?_stored hstored (fun e he => (hnames e he).1) hname.nulFree)
  · intro blob name len off hfind
    obtain ⟨view, rfl, hshape, i, hi, rfl⟩ := aosBootManifestFind_inside hfind
    refine ⟨aosBootManifestValidate_ok_iff.mpr hshape, view, rfl, ?_⟩
    simp only [manifestHeaderSize, manifestEntrySize, manifestEntryOffset, readManifestHeader]
    omega

/-- A name that fills its field. -/
def fullName : String := "network-packet-capture-and-replay-service-pd-001"

/-- A manifest of the controller and of a domain whose name is not terminated in its field. -/
theorem bootManifest_roundTrip_controller : ∃ entries blob,
      [("controller", List.Vector.replicate 32 7), (fullName, List.Vector.replicate 32 9)].mapM
        (fun e => ManifestEntry.new e.1 e.2) = .ok entries /\
      buildSignedManifest (fun _ => List.Vector.replicate 64 0) entries = .ok blob /\
      aosBootManifestValidate (some (View.ofList blob)) (.ofNat blob.length) = .ok /\
      (asBytes fullName).length = 48 /\
      (aosBootManifestFind (some (View.ofList blob)) (.ofNat blob.length)
        (some (View.ofList (asBytes fullName)))).map
          (fun off => (readManifestEntry ((View.ofList blob).drop off)).sha256) =
        some (List.Vector.replicate 32 9) := by
  obtain ⟨⟨entries, blob, hentries, hblob, hread⟩, -⟩ :=
    bootManifest_roundTrip (fun _ => List.Vector.replicate 64 0)
      [("controller", List.Vector.replicate 32 7), (fullName, List.Vector.replicate 32 9)]
      (by decide) (by decide) (by decide)
  have hview : (View.ofList blob).Holds 0 blob := by
    simpa using View.holds_ofList blob []
  obtain ⟨hvalid, hfind⟩ := hread _ hview
  refine ⟨entries, blob, hentries, hblob, hvalid, by decide, ?_⟩
  rw [hfind _ (asBytes fullName) (View.cstring_ofList (by decide))]
  decide

end AgentOs.Boot
