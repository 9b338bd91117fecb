import AgentOs.Boot.Sections
import Mathlib.Data.List.Nodup

/-!
# The bundle of images

`gen-pd-bundle` writes the images of the protection domains behind a table of their names,
offsets and lengths, and the manifest of their digests; the root task reads both back.  The
table allows 47 bytes for a name, but the root task scans 48 bytes of a path, which has a
suffix, so the two agree on names of at most 44 bytes only.
-/

namespace AgentOs.Boot.GenPdBundle

open Library List Option

/-- One domain of the system description. -/
structure PdDesc where
  name : String
  priority : UInt8

def imageVersion : UInt32 := 1
def bundleNameMax : Nat := 47

/-! ## The writer -/

def checkNames : List PdDesc -> Except String Unit
  | [] => .ok ()
  | pd :: rest =>
    if (asBytes pd.name).length > bundleNameMax then
      .error ("PD name '" ++ pd.name ++ "' is " ++ toString (asBytes pd.name).length ++
        " bytes, exceeds the 47-byte limit " ++
        "the bundle's NUL-terminated name field allows (the boot manifest's " ++
        "name field is 48 bytes with no NUL requirement, one byte more, so a " ++
        "longer name would silently mismatch between bundle and manifest at boot)")
    else checkNames rest

/-- The images, each with the domain it was read for. -/
def readElfs (readFile : String -> Except String (List UInt8)) :
    List PdDesc -> Except String (List (PdDesc × List UInt8))
  | [] => .ok []
  | pd :: rest => do
    let bytes <- readFile (pd.name ++ ".elf")
    let more <- readElfs readFile rest
    pure ((pd, bytes) :: more)

/-- One record of the table and the image it describes. -/
structure Row where
  pd : PdDesc
  elfOff : UInt32
  elf : List UInt8

/-- The offset of each image is the end of the one before it. -/
def rowsFrom : UInt32 -> List (PdDesc × List UInt8) -> List Row
  | _, [] => []
  | runningOff, (pd, elf) :: rest =>
    ⟨pd, runningOff, elf⟩ :: rowsFrom (runningOff + UInt32.ofNat elf.length) rest

def Row.toBytes (row : Row) : List UInt8 :=
  padTo 48 ((asBytes row.pd.name).take 47) ++ toLe 4 row.elfOff.toNat ++
    toLe 4 (UInt32.ofNat row.elf.length).toNat ++ [row.pd.priority] ++ replicate 7 0

def pdTableOff : UInt32 := 64

def rows (pdElfs : List (PdDesc × List UInt8)) : List Row :=
  rowsFrom (pdTableOff + UInt32.ofNat pdElfs.length * 64) pdElfs

def header (numPds : UInt32) : List UInt8 :=
  toLe 8 agentosImageMagicBundle.toNat ++ toLe 4 imageVersion.toNat ++ toLe 4 numPds.toNat ++
    -- neither a kernel nor a root task in the bundle: their offsets and lengths are 0
    toLe 4 0 ++ toLe 4 0 ++ toLe 4 0 ++ toLe 4 0 ++
    toLe 4 pdTableOff.toNat ++ replicate 28 0

def bundle (pdElfs : List (PdDesc × List UInt8)) : List UInt8 :=
  header (.ofNat pdElfs.length) ++ (rows pdElfs).flatMap Row.toBytes ++
    pdElfs.flatMap Prod.snd

/-- What one run writes: the bundle and the manifest.  The anchor selection gives the key
that signs. -/
def run (readFile : String -> Except String (List UInt8))
    (sha256 : List UInt8 -> List.Vector UInt8 32)
    (selectAnchor : Except String (List UInt8 -> List.Vector UInt8 64)) (pds : List PdDesc) :
    Except String (List UInt8 × List UInt8) := do
  checkNames pds
  let pdElfs <- readElfs readFile pds
  let manifestEntries <- pdElfs.mapM fun (pd, elf) => ManifestEntry.new pd.name (sha256 elf)
  let signingKey <- selectAnchor
  let manifestBlob <- buildSignedManifest signingKey manifestEntries
  pure (bundle pdElfs, manifestBlob)

/-! ## What an accepted run gives -/

theorem bind_eq_ok {α β : Type} {x : Except String α} {next : α -> Except String β} {b : β} :
    (x >>= next) = .ok b ↔ ∃ a, x = .ok a /\ next a = .ok b := by
  cases x with
  | error e => simp [bind, Except.bind]
  | ok a => simp [bind, Except.bind]

variable {pds : List PdDesc}

theorem checkNames_ok (hok : checkNames pds = .ok ()) :
    ∀ pd ∈ pds, (asBytes pd.name).length <= 47 := by
  induction pds with
  | nil => simp
  | cons pd rest ih =>
    unfold checkNames at hok
    split at hok
    · cases hok
    · rename_i hfits
      exact forall_mem_cons.mpr ⟨Nat.not_lt.mp hfits, ih hok⟩

variable {pdElfs : List (PdDesc × List UInt8)}

theorem readElfs_ok {readFile : String -> Except String (List UInt8)}
    (hok : readElfs readFile pds = .ok pdElfs) :
    pdElfs.map Prod.fst = pds /\ ∀ e ∈ pdElfs, readFile (e.1.name ++ ".elf") = .ok e.2 := by
  induction pds generalizing pdElfs with
  | nil =>
    cases hok
    simp
  | cons pd rest ih =>
    unfold readElfs at hok
    obtain ⟨bytes, hbytes, hok⟩ := bind_eq_ok.mp hok
    obtain ⟨more, hmore, hok⟩ := bind_eq_ok.mp hok
    cases hok
    obtain ⟨hnames, hread⟩ := ih hmore
    exact ⟨congrArg (pd :: ·) hnames, forall_mem_cons.mpr ⟨hbytes, hread⟩⟩

/-! ## Names and paths -/

def dotElf : List UInt8 := [0x2e, 0x65, 0x6c, 0x66]

theorem asBytes_append (a b : String) : asBytes (a ++ b) = asBytes a ++ asBytes b := by
  simp [asBytes]

theorem asBytes_path (name : String) : asBytes (name ++ ".elf") = asBytes name ++ dotElf := by
  rw [asBytes_append]
  rfl

theorem asBytes_inj {a b : String} : asBytes a = asBytes b ↔ a = b := by
  constructor
  · intro h
    exact String.toByteArray_inj.mp (ByteArray.ext (Array.toList_inj.mp h))
  · rintro rfl
    rfl

section Path

variable {path field : View} {key n : List UInt8}

section

variable (hpath : path.CString (key ++ dotElf))

include hpath

theorem suffix_bytes :
    path key.length = 0x2e /\ path (key.length + 1) = 0x65 /\ path (key.length + 2) = 0x6c /\
      path (key.length + 3) = 0x66 := by
  have hbytes := hpath.bytes
  rw [append_assoc, View.holds_append, Nat.zero_add] at hbytes
  simp only [dotElf, cons_append, nil_append, View.holds_cons] at hbytes
  obtain ⟨-, h0, h1, h2, h3, -⟩ := hbytes
  exact ⟨h0, h1, h2, h3⟩

theorem strnlen_path : path.strnlen 48 = min (key.length + 4) 48 := by
  rw [hpath.strnlen_eq, length_append]
  rfl

/-- A path that was scanned to its end loses its suffix. -/
theorem stemLength_short (hshort : key.length <= 44) : stemLength path = key.length := by
  obtain ⟨h0, h1, h2, h3⟩ := suffix_bytes hpath
  have hends : endsInElf path (key.length + 4) = true := by
    simp [endsInElf, h0, h1, h2, h3]
  rw [stemLength, strnlen_path hpath, Nat.min_eq_left (by omega)]
  simp [hends]

/-- A longer one does not: its dot stands where the suffix is expected to have a letter. -/
theorem stemLength_long (hlong : 45 <= key.length)
    (hmax : key.length <= 47) : stemLength path = 48 := by
  obtain ⟨h0, -, -, -⟩ := suffix_bytes hpath
  have hends : endsInElf path 48 = false := by
    have hlength : key.length = 45 \/ key.length = 46 \/ key.length = 47 := by omega
    rcases hlength with hlength | hlength | hlength
    all_goals
      rw [hlength] at h0
      simp [endsInElf, h0]
  rw [stemLength, strnlen_path hpath, Nat.min_eq_right (by omega)]
  simp [hends]

/-- Which stored names the path of a domain selects. -/
theorem bundleNameMatch_iff (hmax : key.length <= 47)
    (hfield : field.CString n) (hend : field 47 = 0) :
    bundleNameMatch path field = true ↔ n = key /\ key.length <= 44 := by
  unfold bundleNameMatch
  rcases Nat.lt_or_ge 44 key.length with hlong | hshort
  · have hne : path 47 ≠ 0 := hpath.ne_zero (by simp [dotElf]; omega)
    rw [stemLength_long hpath hlong hmax]
    refine iff_of_false ?_ fun h => absurd h.2 (Nat.not_le.mpr hlong)
    intro hmatch
    rw [Bool.and_eq_true, List.all_eq_true] at hmatch
    have hlast := hmatch.1 47 (by simp)
    rw [beq_iff_eq, hend] at hlast
    exact hne hlast
  · have hkey : path.Holds 0 key := by
      have hbytes := hpath.bytes
      rw [append_assoc] at hbytes
      exact (View.holds_append.mp hbytes).1
    have hnul : 0 ∉ key := fun hmem => hpath.nulFree (mem_append_left _ hmem)
    have hsame : field.Holds 0 key ↔ ∀ k < key.length, path k = field k := by
      rw [View.Holds, <- hkey.slice_eq rfl, View.length_slice, eq_comm, View.slice_eq_iff]
      simp only [Nat.zero_add]
    have hstring : n = key ↔ field.Holds 0 key /\ field key.length = 0 := by
      constructor
      · rintro rfl
        exact ⟨(View.holds_append.mp hfield.bytes).1, hfield.end_eq⟩
      · rintro ⟨hbytes, hzero⟩
        refine hfield.unique ⟨View.holds_append.mpr ⟨hbytes, ?_⟩, hnul⟩
        rw [Nat.zero_add]
        exact View.holds_cons.mpr ⟨hzero, View.holds_nil⟩
    have hscan : min key.length 48 = key.length := Nat.min_eq_left (by omega)
    rw [hstring, hsame]
    simp only [stemLength_short hpath hshort, hscan, Bool.and_eq_true, List.all_eq_true]
    simp [hshort]

end

end Path

/-! ## The table and the images in memory -/

theorem length_nameField (row : Row) :
    (padTo 48 ((asBytes row.pd.name).take 47)).length = 48 :=
  length_padTo (Nat.le_trans (length_take_le _ _) (by decide))

theorem length_row_toBytes (row : Row) : row.toBytes.length = 64 := by
  simp only [Row.toBytes, length_append, length_nameField, length_toLe, length_singleton,
    length_replicate]

theorem length_header (numPds : UInt32) : (header numPds).length = 64 := by
  simp only [header, length_append, length_toLe, length_replicate]

theorem rowsFrom_map (off : UInt32) (pdElfs : List (PdDesc × List UInt8)) :
    (rowsFrom off pdElfs).map (fun row => (row.pd, row.elf)) = pdElfs := by
  induction pdElfs generalizing off with
  | nil => rfl
  | cons head rest ih => exact congrArg (head :: ·) (ih _)

theorem length_rowsFrom (off : UInt32) (pdElfs : List (PdDesc × List UInt8)) :
    (rowsFrom off pdElfs).length = pdElfs.length := by
  conv_rhs => rw [<- rowsFrom_map off pdElfs, length_map]

/-- Every image lies where its record says, as long as the offsets fit. -/
theorem rowsFrom_holds {v : View} {off : UInt32}
    (hholds : v.Holds off.toNat (pdElfs.flatMap Prod.snd))
    (hfits : off.toNat + (pdElfs.flatMap Prod.snd).length < 2 ^ 32) :
    ∀ row ∈ rowsFrom off pdElfs, off.toNat <= row.elfOff.toNat /\
      row.elfOff.toNat + row.elf.length <= off.toNat + (pdElfs.flatMap Prod.snd).length /\
      v.Holds row.elfOff.toNat row.elf := by
  induction pdElfs generalizing off with
  | nil => exact nofun
  | cons head rest ih =>
    obtain ⟨pd, elf⟩ := head
    rw [flatMap_cons, View.holds_append] at hholds
    rw [flatMap_cons, length_append] at hfits
    simp only at hholds hfits
    have hnext : (off + UInt32.ofNat elf.length).toNat = off.toNat + elf.length := by
      rw [UInt32.toNat_add, UInt32.toNat_ofNat', Nat.add_mod_mod]
      exact Nat.mod_eq_of_lt (by omega)
    have hrest := ih (hnext ▸ hholds.2) (by omega)
    rw [flatMap_cons, length_append]
    refine forall_mem_cons.mpr ⟨⟨Nat.le_refl _, by simp only; omega, hholds.1⟩, ?_⟩
    intro row hmem
    obtain ⟨hle, hbound, hrow⟩ := hrest row hmem
    exact ⟨by omega, by simp only; omega, hrow⟩

/-- A section of the root task that holds these bytes and nothing else. -/
structure SectionHolds (m : Sections) (start stop : UInt64) (bytes : List UInt8) : Prop where
  size : stop.toNat = start.toNat + bytes.length
  bytes : (m.viewAt start).Holds 0 bytes

section Placed

variable {m : Sections} {start stop : UInt64}

theorem SectionHolds.length {bytes : List UInt8} (h : SectionHolds m start stop bytes) :
    (if stop > start then stop - start else 0).toNat = bytes.length := by
  have hsize := h.size
  split
  · rename_i hlt
    rw [UInt64.toNat_sub_of_le _ _ (UInt64.le_of_lt hlt)]
    omega
  · rename_i hge
    rw [gt_iff_lt, UInt64.lt_iff_toNat_lt, Nat.not_lt] at hge
    rw [UInt64.toNat_zero]
    omega

theorem viewAt_add (m : Sections) (p : UInt64) (off : UInt32) :
    m.viewAt (p + off.toUInt64) = (m.viewAt p).drop off.toNat := by
  funext i
  have hoff : UInt64.ofNat off.toNat = off.toUInt64 := by
    rw [<- UInt64.toNat_inj, UInt64.toNat_ofNat', UInt32.toNat_toUInt64]
    exact Nat.mod_eq_of_lt (Nat.lt_trans off.toNat_lt (by decide))
  rw [Sections.viewAt, View.drop_apply, Sections.viewAt, UInt64.ofNat_add, hoff, UInt64.add_assoc]

variable {pdElfs : List (PdDesc × List UInt8)}

/-- The bundle of one run in its section. -/
structure Placed (m : Sections) (pdElfs : List (PdDesc × List UInt8)) : Prop where
  bundle : SectionHolds m m.pdBundleStart m.pdBundleEnd (bundle pdElfs)
  size : (GenPdBundle.bundle pdElfs).length < 2 ^ 32
  names : ∀ e ∈ pdElfs, (asBytes e.1.name).length <= 47 /\ 0 ∉ asBytes e.1.name

theorem length_bundle (pdElfs : List (PdDesc × List UInt8)) :
    (bundle pdElfs).length = 64 + 64 * pdElfs.length + (pdElfs.flatMap Prod.snd).length := by
  rw [bundle, length_append, length_append, length_header,
    length_flatMap_of_size length_row_toBytes, rows, length_rowsFrom]

theorem Placed.dataStart (h : Placed m pdElfs) :
    (pdTableOff + UInt32.ofNat pdElfs.length * 64).toNat = 64 + 64 * pdElfs.length := by
  have hsize := h.size
  rw [length_bundle] at hsize
  simp only [pdTableOff, UInt32.toNat_add, UInt32.toNat_mul, UInt32.toNat_ofNat', UInt32.reduceToNat]
  omega

theorem Placed.parts (h : Placed m pdElfs) :
    m.bundle.Holds 0 (header (.ofNat pdElfs.length)) /\
      m.bundle.Holds 64 ((rows pdElfs).flatMap Row.toBytes) /\
      m.bundle.Holds (64 + 64 * pdElfs.length) (pdElfs.flatMap Prod.snd) := by
  have hbytes := h.bundle.bytes
  rw [GenPdBundle.bundle, View.holds_append, View.holds_append, length_append, length_header,
    length_flatMap_of_size length_row_toBytes, rows, length_rowsFrom, Nat.zero_add, Nat.zero_add]
    at hbytes
  exact ⟨hbytes.1.1, hbytes.1.2, hbytes.2⟩

theorem Placed.headerFields (h : Placed m pdElfs) :
    m.bundle.u64 0 = agentosImageMagicBundle /\ (m.bundle.u32 12).toNat = pdElfs.length /\
      m.bundle.u32 32 = pdTableOff := by
  have hheader := h.parts.1
  simp only [header, View.holds_append, length_append, length_toLe, Nat.zero_add,
    Nat.reduceAdd] at hheader
  obtain ⟨⟨⟨⟨⟨⟨⟨⟨hmagic, -⟩, hcount⟩, -⟩, -⟩, -⟩, -⟩, htable⟩, -⟩ := hheader
  refine ⟨hmagic.u64_eq, ?_, htable.u32_eq⟩
  have hsize := h.size
  rw [length_bundle] at hsize
  rw [hcount.u32_eq, UInt32.toNat_ofNat']
  omega

variable {row : Row}

/-- The name a record stores, ended by a zero byte within its field. -/
theorem row_name {field : View} (hrow : field.Holds 0 row.toBytes)
    (hmax : (asBytes row.pd.name).length <= 47) (hnul : 0 ∉ asBytes row.pd.name) :
    field.CString (asBytes row.pd.name) /\ field 47 = 0 := by
  rw [Row.toBytes, take_of_length_le hmax, View.holds_append, View.holds_append,
    View.holds_append, View.holds_append] at hrow
  have hname := hrow.1.1.1.1
  rw [padTo, View.holds_append, Nat.zero_add, View.holds_replicate] at hname
  obtain ⟨hbytes, hzeros⟩ := hname
  constructor
  · refine ⟨View.holds_append.mpr ⟨hbytes, ?_⟩, hnul⟩
    rw [Nat.zero_add]
    refine View.holds_cons.mpr ⟨hzeros _ ?_, View.holds_nil⟩
    rw [mem_range'_1]
    omega
  · refine hzeros 47 ?_
    rw [mem_range'_1]
    omega

theorem row_place {field : View} (hrow : field.Holds 0 row.toBytes) :
    field.u32 48 = row.elfOff /\ field.u32 52 = .ofNat row.elf.length := by
  simp only [Row.toBytes, View.holds_append, length_append, length_toLe, length_nameField,
    Nat.zero_add, Nat.reduceAdd] at hrow
  obtain ⟨⟨⟨⟨-, hoff⟩, hlen⟩, -⟩, -⟩ := hrow
  exact ⟨hoff.u32_eq, hlen.u32_eq⟩

theorem row_mem (hmem : row ∈ rows pdElfs) : (row.pd, row.elf) ∈ pdElfs := by
  have hmap : (row.pd, row.elf) ∈ (rows pdElfs).map (fun row => (row.pd, row.elf)) :=
    mem_map_of_mem hmem
  rwa [rows, rowsFrom_map] at hmap

variable {path : View}

theorem Placed.bundleEntry_eq (h : Placed m pdElfs) {key : List UInt8}
    (hpath : path.CString (key ++ dotElf)) (hmax : key.length <= 47) :
    (bundleEntry m path).map (fun entry => (entry.u32 48, entry.u32 52)) =
      ((rows pdElfs).find? fun row => asBytes row.pd.name = key /\ key.length <= 44).map
        fun row => (row.elfOff, UInt32.ofNat row.elf.length) := by
  obtain ⟨hmagic, hcount, htable⟩ := h.headerFields
  have hlarge : ¬m.bundleSize < 64 := by
    have hsize : m.bundleSize.toNat = (GenPdBundle.bundle pdElfs).length := h.bundle.length
    rw [length_bundle] at hsize
    have hsmall : (64 : UInt64).toNat = 64 := rfl
    rw [UInt64.lt_iff_toNat_lt, hsize, hsmall]
    omega
  have hrows : pdElfs.length = (rows pdElfs).length := (length_rowsFrom _ _).symm
  rw [bundleEntry, if_neg hlarge, if_neg (not_not.mpr hmagic), hcount, htable, Option.map_map, hrows]
  refine find?_range'_map fun i hi => ?_
  have hrow : (m.bundle.drop (64 + 64 * i)).Holds 0 (rows pdElfs)[i].toBytes := by
    rw [View.holds_drop, Nat.add_zero]
    exact h.parts.2.1.flatMap length_row_toBytes hi
  obtain ⟨hfits, hnul⟩ := h.names _ (row_mem (getElem_mem hi))
  obtain ⟨hname, hend⟩ := row_name hrow hfits hnul
  obtain ⟨hoff, hlen⟩ := row_place hrow
  have hoffset : pdTableOff.toNat + 64 * (0 + i) = 64 + 64 * i := by
    rw [Nat.zero_add]
    rfl
  simp only [Function.comp_apply, hoffset]
  refine ⟨?_, Prod.ext hoff hlen⟩
  rw [Bool.eq_iff_iff, bundleNameMatch_iff hpath hmax hname hend, decide_eq_true_iff]

theorem Placed.find (h : Placed m pdElfs) (hdistinct : (pdElfs.map fun e => e.1.name).Nodup)
    {e : PdDesc × List UInt8} (hmem : e ∈ pdElfs)
    (hpath : path.CString (asBytes e.1.name ++ dotElf)) (hshort : (asBytes e.1.name).length <= 44) :
    ∃ elfOff : UInt32, 64 <= elfOff.toNat /\
      elfOff.toNat + e.2.length <= (GenPdBundle.bundle pdElfs).length /\
      m.bundle.Holds elfOff.toNat e.2 /\
      bootFindElfInBundle m path = m.pdBundleStart + elfOff.toUInt64 /\
      bootElfSizeInBundle m path = (UInt32.ofNat e.2.length).toUInt64 := by
  have hmap : (rows pdElfs).map (fun row => (row.pd, row.elf)) = pdElfs := rowsFrom_map _ _
  obtain ⟨row, hrow, rfl⟩ := mem_map.mp (hmap.symm ▸ hmem)
  have hnames : ((rows pdElfs).map fun r => r.pd.name).Nodup := by
    rw [<- hmap, List.map_map] at hdistinct
    exact hdistinct
  have hunique : (rows pdElfs).find? (fun r => asBytes r.pd.name = asBytes row.pd.name /\
      (asBytes row.pd.name).length <= 44) = some row := by
    refine find?_eq_some_of_unique hrow (decide_eq_true ⟨rfl, hshort⟩) fun other hother hmatch => ?_
    have hsame := (of_decide_eq_true hmatch).1
    exact inj_on_of_nodup_map hnames hother hrow (asBytes_inj.mp hsame)
  have hentry := h.bundleEntry_eq hpath (Nat.le_trans hshort (by decide))
  rw [hunique, Option.map_some] at hentry
  obtain ⟨entry, hentry, hplace⟩ := map_eq_some_iff.mp hentry
  obtain ⟨hoff, hlen⟩ := Prod.mk.inj hplace
  have hsize := h.size
  have hlength := length_bundle pdElfs
  have hdata := h.parts.2.2
  rw [<- h.dataStart] at hdata
  obtain ⟨hle, hbound, hholds⟩ := rowsFrom_holds hdata (by rw [h.dataStart]; omega) row hrow
  rw [h.dataStart] at hle hbound
  refine ⟨row.elfOff, by omega, by simp only; omega, hholds, ?_, ?_⟩
  · rw [bootFindElfInBundle, hentry, <- hoff]
  · rw [bootElfSizeInBundle, hentry, <- hlen]

theorem Placed.find_long (h : Placed m pdElfs) {key : List UInt8}
    (hpath : path.CString (key ++ dotElf)) (hmax : key.length <= 47) (hlong : 44 < key.length) :
    bootFindElfInBundle m path = 0 := by
  have hentry := h.bundleEntry_eq hpath hmax
  rw [find?_eq_none.mpr (by simp; omega), Option.map_none, Option.map_eq_none_iff] at hentry
  rw [bootFindElfInBundle, hentry]

end Placed

/-! ## The digest -/

variable {sha256 : List UInt8 -> List.Vector UInt8 32}

theorem stores_of_mapM {entries : List ManifestEntry}
    (hok : (pdElfs.mapM fun (pd, elf) => ManifestEntry.new pd.name (sha256 elf)) = .ok entries) :
    List.Forall₂ Stores (pdElfs.map fun e => (e.1.name, sha256 e.2)) entries := by
  induction pdElfs generalizing entries with
  | nil =>
    cases hok
    exact .nil
  | cons head rest ih =>
    rw [mapM_cons] at hok
    obtain ⟨e, hnew, hok⟩ := bind_eq_ok.mp hok
    obtain ⟨more, hmore, hok⟩ := bind_eq_ok.mp hok
    cases hok
    refine .cons ?_ (ih hmore)
    unfold ManifestEntry.new at hnew
    simp only at hnew
    split at hnew
    · cases hnew
    · cases hnew
      exact ⟨rfl, rfl⟩

theorem buildSignedManifest_inv {sign : List UInt8 -> List.Vector UInt8 64}
    {entries : List ManifestEntry} {blob : List UInt8}
    (hok : buildSignedManifest sign entries = .ok blob) :
    entries ≠ [] /\ entries.length <= 32 /\
      blob = manifestBody entries ++ (sign (manifestBody entries)).toList := by
  unfold buildSignedManifest at hok
  split at hok
  · cases hok
  rename_i hne
  split at hok
  · cases hok
  · rename_i hmax
    cases hok
    exact ⟨hne, Nat.not_lt.mp hmax, rfl⟩

/-- Both sections as one run wrote them. -/
structure Written (sha256 : List UInt8 -> List.Vector UInt8 32) (m : Sections)
    (pdElfs : List (PdDesc × List UInt8)) (manifestBlob : List UInt8) : Prop where
  placed : Placed m pdElfs
  manifest : SectionHolds m m.pdManifestStart m.pdManifestEnd manifestBlob
  signed : ∃ sign entries, buildSignedManifest sign entries = .ok manifestBlob /\
    List.Forall₂ Stores (pdElfs.map fun e => (e.1.name, sha256 e.2)) entries

variable {manifestBlob : List UInt8}

/-- The manifest has the digest of each image under the name of its domain. -/
theorem Written.digest {m : Sections} (h : Written sha256 m pdElfs manifestBlob)
    (hdistinct : (pdElfs.map fun e => e.1.name).Nodup) {e : PdDesc × List UInt8} (hmem : e ∈ pdElfs)
    {name : View} (hname : name.CString (asBytes e.1.name)) :
    (aosBootManifestFind (some m.manifest) m.manifestSize.toUInt32 (some name)).map
      (fun off => (readManifestEntry (m.manifest.drop off)).sha256) = some (sha256 e.2) := by
  obtain ⟨sign, entries, hbuild, hstored⟩ := h.signed
  obtain ⟨hne, hmax, rfl⟩ := buildSignedManifest_inv hbuild
  have hholds : HoldsManifest m.manifest entries :=
    ⟨(View.holds_append.mp h.manifest.bytes).1, hne, hmax⟩
  have hlen : 32 + 80 * entries.length + 64 <= m.manifestSize.toUInt32.toNat := by
    have hsize : m.manifestSize.toNat = _ := h.manifest.length
    rw [length_append, length_manifestBody, List.Vector.toList_length] at hsize
    rw [UInt64.toNat_toUInt32, hsize]
    omega
  have hfind := congrArg (Option.map ManifestEntry.sha256) (hholds.find hlen hname)
  rw [Option.map_map, find?_stored hstored ?_ hname.nulFree] at hfind
  · refine hfind.trans ?_
    have hunique : (pdElfs.map fun e => (e.1.name, sha256 e.2)).find?
        (fun named => asBytes named.1 = asBytes e.1.name) = some (e.1.name, sha256 e.2) := by
      refine find?_eq_some_of_unique (mem_map_of_mem hmem) (decide_eq_true rfl) ?_
      intro named hnamed hmatch
      obtain ⟨other, hother, rfl⟩ := mem_map.mp hnamed
      have hsame := asBytes_inj.mp (of_decide_eq_true hmatch)
      rw [inj_on_of_nodup_map hdistinct hother hmem hsame]
    rw [hunique, Option.map_some]
  · intro named hnamed
    obtain ⟨other, hother, rfl⟩ := mem_map.mp hnamed
    exact (h.placed.names other hother).2

/-! ## The round trip -/

/-- The root task finds the image of a domain with its length, and its digest is right. -/
structure ReadsBack (sha256 : List UInt8 -> List.Vector UInt8 32) (m : Sections)
    (path name : View) (elf : List UInt8) : Prop where
  found : bootFindElfInBundle m path ≠ 0
  bytes : (m.viewAt (bootFindElfInBundle m path)).Holds 0 elf
  length : (bootElfSizeInBundle m path).toNat = elf.length
  digest : bootVerifyPdDigest sha256 m name (bootFindElfInBundle m path)
    (bootElfSizeInBundle m path) = .ok

theorem Written.readsBack {m : Sections} (h : Written sha256 m pdElfs manifestBlob)
    (hdistinct : (pdElfs.map fun e => e.1.name).Nodup) {e : PdDesc × List UInt8} (hmem : e ∈ pdElfs)
    {path name : View} (hpath : path.CString (asBytes e.1.name ++ dotElf))
    (hname : name.CString (asBytes e.1.name)) (hshort : (asBytes e.1.name).length <= 44)
    (hne : e.2 ≠ []) :
    ReadsBack sha256 m path name e.2 := by
  obtain ⟨elfOff, hle, hbound, hholds, hfind, hsize⟩ := h.placed.find hdistinct hmem hpath hshort
  have hstop := m.pdBundleEnd.toNat_lt
  rw [h.placed.bundle.size] at hstop
  have hpos := length_pos_iff.mpr hne
  have htotal := h.placed.size
  have hlength : (UInt32.ofNat e.2.length).toUInt64.toNat = e.2.length := by
    rw [UInt32.toNat_toUInt64, UInt32.toNat_ofNat']
    exact Nat.mod_eq_of_lt (by omega)
  have hpointer : m.pdBundleStart + elfOff.toUInt64 ≠ 0 := by
    rw [ne_eq, <- UInt64.toNat_inj, UInt64.toNat_add, UInt32.toNat_toUInt64, UInt64.toNat_zero,
      Nat.mod_eq_of_lt (by omega)]
    omega
  have hbytes : (m.viewAt (m.pdBundleStart + elfOff.toUInt64)).Holds 0 e.2 := by
    rw [viewAt_add, View.holds_drop, Nat.add_zero]
    exact hholds
  refine ⟨hfind ▸ hpointer, hfind ▸ hbytes, hsize ▸ hlength, ?_⟩
  rw [hfind, hsize, bootVerifyPdDigest, if_neg]
  · obtain ⟨off, hoff, hsha⟩ := map_eq_some_iff.mp (h.digest hdistinct hmem hname)
    have hcount : (UInt32.ofNat e.2.length).toUInt64.toUInt32.toNat = e.2.length := by
      rw [UInt64.toNat_toUInt32, hlength]
      exact Nat.mod_eq_of_lt (by omega)
    simp only [hoff, hcount, hbytes.slice_eq rfl, hsha, ne_eq, not_true_eq_false, ↓reduceIte]
  · rintro (hzero | hzero)
    · exact hpointer hzero
    · rw [<- UInt64.toNat_inj, hlength, UInt64.toNat_zero] at hzero
      omega

theorem run_ok {readFile : String -> Except String (List UInt8)}
    {selectAnchor : Except String (List UInt8 -> List.Vector UInt8 64)} {bundleBlob : List UInt8}
    (hrun : run readFile sha256 selectAnchor pds = .ok (bundleBlob, manifestBlob)) :
    ∃ pdElfs, readElfs readFile pds = .ok pdElfs /\ bundleBlob = bundle pdElfs /\
      (∀ pd ∈ pds, (asBytes pd.name).length <= 47) /\
      ∃ sign entries, buildSignedManifest sign entries = .ok manifestBlob /\
        List.Forall₂ Stores (pdElfs.map fun e => (e.1.name, sha256 e.2)) entries := by
  unfold run at hrun
  obtain ⟨_, hnames, hrun⟩ := bind_eq_ok.mp hrun
  obtain ⟨pdElfs, helfs, hrun⟩ := bind_eq_ok.mp hrun
  obtain ⟨entries, hentries, hrun⟩ := bind_eq_ok.mp hrun
  obtain ⟨sign, -, hrun⟩ := bind_eq_ok.mp hrun
  obtain ⟨blob, hblob, hrun⟩ := bind_eq_ok.mp hrun
  cases hrun
  exact ⟨pdElfs, helfs, rfl, checkNames_ok hnames, sign, entries, hblob, stores_of_mapM hentries⟩

/-- Of the domains of an accepted list, the root task reads back exactly those whose name
has at most 44 bytes and whose image is not empty. -/
theorem readsBack_iff {readFile : String -> Except String (List UInt8)}
    {sha256 : List UInt8 -> List.Vector UInt8 32}
    {selectAnchor : Except String (List UInt8 -> List.Vector UInt8 64)} {pds : List PdDesc}
    {bundleBlob manifestBlob : List UInt8} {m : Sections}
    (hrun : run readFile sha256 selectAnchor pds = .ok (bundleBlob, manifestBlob))
    (hdistinct : (pds.map PdDesc.name).Nodup) (hnul : ∀ pd ∈ pds, 0 ∉ asBytes pd.name)
    (hsize : bundleBlob.length < 2 ^ 32)
    (hbundle : SectionHolds m m.pdBundleStart m.pdBundleEnd bundleBlob)
    (hmanifest : SectionHolds m m.pdManifestStart m.pdManifestEnd manifestBlob)
    {pd : PdDesc} (hpd : pd ∈ pds) {path name : View}
    (hpath : path.CString (asBytes (pd.name ++ ".elf"))) (hname : name.CString (asBytes pd.name)) :
    ∃ elf, readFile (pd.name ++ ".elf") = .ok elf /\
      (ReadsBack sha256 m path name elf ↔ (asBytes pd.name).length <= 44 /\ elf ≠ []) := by
  obtain ⟨pdElfs, helfs, rfl, hmax, hsigned⟩ := run_ok hrun
  obtain ⟨rfl, hread⟩ := readElfs_ok helfs
  obtain ⟨e, hmem, rfl⟩ := mem_map.mp hpd
  have hnames : ∀ e ∈ pdElfs, (asBytes e.1.name).length <= 47 /\ 0 ∉ asBytes e.1.name := by
    intro other hother
    have hfst := mem_map_of_mem (f := Prod.fst) hother
    exact ⟨hmax _ hfst, hnul _ hfst⟩
  have hwritten : Written sha256 m pdElfs manifestBlob :=
    ⟨⟨hbundle, hsize, hnames⟩, hmanifest, hsigned⟩
  rw [List.map_map] at hdistinct
  rw [asBytes_path] at hpath
  refine ⟨e.2, hread e hmem, ?_, ?_⟩
  · intro hback
    constructor
    · by_contra hlong
      exact hback.found (hwritten.placed.find_long hpath (hnames e hmem).1 (Nat.not_le.mp hlong))
    · intro hempty
      have hlength := hback.length
      rw [hempty, length_nil] at hlength
      have hdigest := hback.digest
      rw [bootVerifyPdDigest, if_pos (Or.inr (UInt64.toNat_inj.mp hlength))] at hdigest
      cases hdigest
  · rintro ⟨hshort, hne⟩
    exact hwritten.readsBack hdistinct hmem hpath hname hshort hne

/-- A root task whose two sections stand one after the other. -/
def sectionsOf (bundleBlob manifestBlob : List UInt8) : Sections where
  memory := fun a => (bundleBlob ++ manifestBlob).getD (a.toNat - 0x1000) 0
  pdBundleStart := 0x1000
  pdBundleEnd := 0x1000 + UInt64.ofNat bundleBlob.length
  pdManifestStart := 0x1000 + UInt64.ofNat bundleBlob.length
  pdManifestEnd := 0x1000 + UInt64.ofNat (bundleBlob.length + manifestBlob.length)

/-- A digest that depends on every byte. -/
def sumDigest (bytes : List UInt8) : List.Vector UInt8 32 := .replicate 32 (bytes.foldl (· + ·) 0)

/-- A signature that depends on every byte and on the key. -/
def sumSign (key : List.Vector UInt8 32) (body : List UInt8) : List.Vector UInt8 64 :=
  .replicate 64 (body.foldl (· + ·) key.head)

/-- One domain with an image of four bytes. -/
def oneImage (name : String) : Except String (List UInt8 × List UInt8) :=
  run (fun _ => .ok [0x7f, 0x45, 0x4c, 0x46]) sumDigest
    (.ok (sumSign (List.Vector.replicate 32 1))) [⟨name, 100⟩]

/-- The root task that carries what such a run wrote. -/
def oneImageSections (name : String) : Sections :=
  match oneImage name with
  | .ok (bundleBlob, manifestBlob) => sectionsOf bundleBlob manifestBlob
  | .error _ => sectionsOf [] []

theorem readsBack_iff_controller :
    ReadsBack sumDigest (oneImageSections "controller")
      (View.ofList (asBytes ("controller" ++ ".elf"))) (View.ofList (asBytes "controller"))
      [0x7f, 0x45, 0x4c, 0x46] := by
  have hmem : (⟨"controller", 100⟩ : PdDesc) ∈ [⟨"controller", 100⟩] := mem_singleton.mpr rfl
  obtain ⟨elf, helf, hiff⟩ := readsBack_iff (m := oneImageSections "controller")
    (show oneImage "controller" = .ok _ from rfl) (by decide) (by decide) (by decide +kernel)
    ⟨by decide +kernel, by decide +kernel⟩ ⟨by decide +kernel, by decide +kernel⟩ hmem
    (View.cstring_ofList (by decide)) (View.cstring_ofList (by decide))
  cases helf
  exact hiff.mpr ⟨by decide, by decide⟩

def longName : String := "network-packet-capture-and-replay-service-pd0"

/-- A name of 45 bytes is accepted, and the image is not found in what was written. -/
theorem longName_notFound :
    ∃ bundleBlob manifestBlob, oneImage longName = .ok (bundleBlob, manifestBlob) /\
      (asBytes longName).length = 45 /\ 0 ∉ asBytes longName /\
      SectionHolds (oneImageSections longName) (oneImageSections longName).pdBundleStart
        (oneImageSections longName).pdBundleEnd bundleBlob /\
      SectionHolds (oneImageSections longName) (oneImageSections longName).pdManifestStart
        (oneImageSections longName).pdManifestEnd manifestBlob /\
      bootFindElfInBundle (oneImageSections longName)
        (View.ofList (asBytes (longName ++ ".elf"))) = 0 := by
  refine ⟨_, _, rfl, by decide, by decide, ⟨?_, ?_⟩, ⟨?_, ?_⟩, ?_⟩
  all_goals decide +kernel

end AgentOs.Boot.GenPdBundle
