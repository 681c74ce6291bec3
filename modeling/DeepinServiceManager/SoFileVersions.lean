import DeepinServiceManager.SectionSearch
import DeepinServiceManager.ElfFiles

namespace DeepinServiceManager.SoFileVersions

open ByteWords ElfFiles Utils SectionSearch

/-- The characters of ".qtversion". -/
def qtversionName : List UInt8 := [0x2e, 0x71, 0x74, 0x76, 0x65, 0x72, 0x73, 0x69, 0x6f, 0x6e]

def toShdr (sh : SectionHeader) : Elf64_Shdr := ⟨sh.name, sh.offset, sh.size⟩

variable {m : Machine} {content : FileContent}

theorem e_shoff_eq : (ehdr m content).e_shoff = tableOffset .elf64 m.order content.bytes := by
  change word m.order (slice (slice content.bytes 0 64) 40 8) = _
  rw [slice_slice _ _ (by decide)]
  rfl

theorem e_shnum_eq : (ehdr m content).e_shnum = shnum .elf64 m.order content.bytes := by
  change word m.order (slice (slice content.bytes 0 64) 60 2) = _
  rw [slice_slice _ _ (by decide)]
  rfl

theorem e_shstrndx_eq : (ehdr m content).e_shstrndx = shstrndx .elf64 m.order content.bytes := by
  change word m.order (slice (slice content.bytes 0 64) 62 2) = _
  rw [slice_slice _ _ (by decide)]
  rfl

theorem ident_eq {cls : ElfClass} {order : ByteOrder} (hfile : WellFormed cls order content.bytes) :
    (ehdr m content).EI_CLASS = classCode cls ∧ (ehdr m content).EI_DATA = dataCode order := by
  constructor
  · change (slice content.bytes 0 64).getD 4 0 = _
    rw [List.getD_eq_getElem?_getD, slice, List.drop_zero, List.getElem?_take_of_lt (by decide), hfile.ident_class]
    rfl
  · change (slice content.bytes 0 64).getD 5 0 = _
    rw [List.getD_eq_getElem?_getD, slice, List.drop_zero, List.getElem?_take_of_lt (by decide), hfile.ident_data]
    rfl

theorem ptrSize_eq {cls : ElfClass} {order : ByteOrder} (hfile : WellFormed cls order content.bytes) :
    ptrSize (ehdr m content) = (layout cls).pointerSize := by
  rw [ptrSize, (ident_eq hfile).1]
  cases cls <;> rfl

theorem fileOrder_eq {cls : ElfClass} {order : ByteOrder} (hfile : WellFormed cls order content.bytes) :
    fileOrder (ehdr m content) = order := by
  rw [fileOrder, (ident_eq hfile).2]
  cases order <;> rfl

theorem seekTo_of_lt {offset : ℕ} (pos : ℕ) (h : offset < 2 ^ 63) : seekTo pos offset = offset := if_pos h

theorem dataAt_eq {sh : SectionHeader} (pos : ℕ) (h : Inside content.bytes sh) :
    dataAt content pos (toShdr sh) = contents content.bytes sh := by
  have hsmall := content.small
  unfold Inside at h
  have hoffset : sh.offset < 2 ^ 63 := by omega
  have hsize : sh.size < 2 ^ 63 := by omega
  change (if sh.size < 2 ^ 63 then slice content.bytes (seekTo pos sh.offset) sh.size else []) = _
  rw [if_pos hsize, seekTo_of_lt pos hoffset]
  rfl

theorem effectiveSize_eq {sh : SectionHeader} (h : Inside content.bytes sh) :
    QByteArray.effectiveSize (toShdr sh).sh_size = sh.size := by
  have hsmall := content.small
  unfold Inside at h
  exact if_pos (by change sh.size < 2 ^ 63; omega)

theorem shdrOf_eq {i : ℕ} (hi : i < shnum .elf64 m.order content.bytes)
    (hpos : tablePos m content = tableOffset .elf64 m.order content.bytes) :
    shdrOf m (slice (table m content) (64 * i) 64) = toShdr (sectionHeader .elf64 m.order content.bytes i) := by
  have htable : slice (table m content) (64 * i) 64 =
      slice content.bytes (sectionOffset .elf64 m.order content.bytes i) 64 := by
    rw [table, slice_slice, hpos]
    · rfl
    · rw [tableSize, e_shnum_eq]
      omega
  rw [htable]
  unfold shdrOf toShdr sectionHeader field
  rw [slice_slice _ _ (by decide), slice_slice _ _ (by decide), slice_slice _ _ (by decide)]
  rfl

section Files

variable (hfile : WellFormed .elf64 m.order content.bytes)
  (hindex : shstrndx .elf64 m.order content.bytes < shnum .elf64 m.order content.bytes)

include hfile hindex

theorem table_inside : tableOffset .elf64 m.order content.bytes + 64 * shnum .elf64 m.order content.bytes ≤
    content.bytes.length := by
  have hcount := sectionCount_of_index hindex
  have hentries := (hfile.entries (by omega)).2
  rwa [hcount] at hentries

theorem tablePos_eq : tablePos m content = tableOffset .elf64 m.order content.bytes := by
  have hsmall := content.small
  have hinside := table_inside hfile hindex
  rw [tablePos, e_shoff_eq]
  exact seekTo_of_lt 64 (by omega)

theorem hasTable : HasTable m content := by
  refine ⟨hfile.header, hfile.magic, ?_⟩
  have hinside := table_inside hfile hindex
  rw [table]
  apply length_slice_of_le
  rw [tablePos_eq hfile hindex, tableSize, e_shnum_eq]
  exact hinside

theorem sections_eq : sections m content = (sectionHeaders .elf64 m.order content.bytes).map toShdr := by
  unfold sections shdrsOf sectionHeaders
  rw [List.map_map, sectionCount_of_index hindex, e_shnum_eq]
  apply List.map_congr_left
  intro i hi
  exact shdrOf_eq (List.mem_range.1 hi) (tablePos_eq hfile hindex)

end Files

theorem stringTable_eq {cls : ElfClass} {order : ByteOrder} {bytes : List UInt8} {sh : SectionHeader}
    (hsh : (sectionHeaders cls order bytes)[stringIndex cls order bytes]? = some sh) :
    stringTable cls order bytes = contents bytes sh := by
  rw [stringTable, hsh]

def padding (m : Machine) : Cells := if m.terminator then [some 0] else []

theorem stringCells_eq {sh : SectionHeader} (h : Inside content.bytes sh) :
    stringCells m content (toShdr sh) = (contents content.bytes sh).map some ++ padding m := by
  have hbytes : stringBytes m content (toShdr sh) = contents content.bytes sh := dataAt_eq _ h
  rw [stringCells, effectiveSize_eq h, hbytes]
  simp only [QByteArray.cells, length_contents h, Nat.sub_self, List.replicate_zero, List.append_nil]
  rfl

theorem zero_notMem_qtversionName : (0 : UInt8) ∉ qtversionName := by decide

section Names

variable {strings : SectionHeader} (hnames : HasNames .elf64 m.order content.bytes)
  (hstrings : (sectionHeaders .elf64 m.order content.bytes)[stringIndex .elf64 m.order content.bytes]? = some strings)
  (hinside : Inside content.bytes strings)

include hnames hstrings hinside

theorem stringCells_drop {sh : SectionHeader} (hsh : sh ∈ sectionHeaders .elf64 m.order content.bytes) :
    (stringCells m content (toShdr strings)).drop sh.name =
      ((stringTable .elf64 m.order content.bytes).drop sh.name).map some ++ padding m := by
  have hcovers := hnames.covers sh hsh
  rw [stringTable_eq hstrings] at hcovers ⊢
  rw [stringCells_eq hinside, List.drop_append_of_le_length (by rw [List.length_map]; omega), List.map_drop]

theorem nameReadable {sh : SectionHeader} (hsh : sh ∈ sectionHeaders .elf64 m.order content.bytes) :
    NameReadable (stringCells m content (toShdr strings)) (toShdr sh) := by
  change Readable ((stringCells m content (toShdr strings)).drop sh.name) (qtversionName ++ [0])
  rw [stringCells_drop hnames hstrings hinside hsh]
  exact readable_terminated _ (hnames.zero_mem hsh) zero_notMem_qtversionName

theorem namedQt_iff {sh : SectionHeader} (hsh : sh ∈ sectionHeaders .elf64 m.order content.bytes) :
    NamedQt (stringCells m content (toShdr strings)) (toShdr sh) ↔
      nameOf .elf64 m.order content.bytes sh = qtversionName := by
  change Named ((stringCells m content (toShdr strings)).drop sh.name) (qtversionName ++ [0]) ↔ _
  rw [stringCells_drop hnames hstrings hinside hsh]
  exact named_terminated _ (hnames.zero_mem hsh) zero_notMem_qtversionName

end Names

theorem findSection_find {cells : Cells} {l : List SectionHeader} {p : SectionHeader → Bool}
    (hreadable : ∀ sh ∈ l, NameReadable cells (toShdr sh))
    (hnamed : ∀ sh ∈ l, (NamedQt cells (toShdr sh) ↔ p sh = true)) :
    findSection cells (l.map toShdr) = some ((l.find? p).map toShdr) := by
  induction l with
  | nil => rfl
  | cons sh rest ih =>
    rw [List.forall_mem_cons] at hreadable hnamed
    rw [List.map_cons, List.find?_cons]
    cases hp : p sh with
    | true => exact findSection_cons_named (hnamed.1.2 hp) _
    | false =>
      have hpassed : PassedOver cells (toShdr sh) := by
        refine ⟨hreadable.1, fun h => ?_⟩
        rw [hnamed.1.1 h] at hp
        cases hp
      rw [findSection_cons_passed hpassed]
      exact ih hreadable.2 hnamed.2

/-- The version in the second variable of the size of a pointer, in the first section of the name. -/
def encodedVersion (cls : ElfClass) (order : ByteOrder) (bytes : List UInt8) : QVersionNumber :=
  match firstNamed cls order bytes qtversionName with
  | none => .null
  | some sh =>
    if sh.size < 2 * (layout cls).pointerSize then .null
    else versionOf (field order bytes (sh.offset + (layout cls).pointerSize) (layout cls).pointerSize)

theorem allocates_inside {sh : SectionHeader} (h : Inside content.bytes sh)
    (halloc : ∀ n ≤ content.bytes.length, m.allocates n = true) : Allocates m (toShdr sh) := by
  refine .inr (halloc _ ?_)
  unfold Inside at h
  change sh.size ≤ content.bytes.length
  omega

theorem versionAt_inside (hfile : WellFormed .elf64 m.order content.bytes) (shstr : Elf64_Shdr) {sh : SectionHeader}
    (h : Inside content.bytes sh) (halloc : ∀ n ≤ content.bytes.length, m.allocates n = true) :
    versionAt m content shstr (toShdr sh) =
      some (if sh.size < 16 then .null else versionOf (field m.order content.bytes (sh.offset + 8) 4)) := by
  have hallocates := allocates_inside h halloc
  have hbytes : sectionBytes m content shstr (toShdr sh) = contents content.bytes sh := dataAt_eq _ h
  have hpointer : ptrSize (ehdr m content) = 8 := ptrSize_eq hfile
  rw [versionAt, if_pos hallocates, effectiveSize_eq h, hpointer, hbytes, length_contents h, fileOrder_eq hfile]
  by_cases hsmall : sh.size < 16
  · rw [if_pos hsmall, if_pos hsmall]
  · rw [if_neg hsmall, if_neg hsmall, if_pos (by omega), contents, slice_slice _ _ (by omega)]
    rfl

theorem mem_of_firstNamed {cls : ElfClass} {order : ByteOrder} {bytes target : List UInt8} {sh : SectionHeader}
    (h : firstNamed cls order bytes target = some sh) :
    sh ∈ sectionHeaders cls order bytes ∧ nameOf cls order bytes sh = target :=
  ⟨List.mem_of_find?_eq_some h, by simpa using List.find?_some h⟩

theorem versionOf_low (bytes : List UInt8) (offset : ℕ) :
    versionOf (field .little bytes offset 4) = versionOf (field .little bytes offset 8) := by
  have hslice : slice bytes offset 4 = (slice bytes offset 8).take 4 := by
    rw [slice, slice, List.take_take]
    rfl
  have hmod : field .little bytes offset 4 = field .little bytes offset 8 % 256 ^ 4 := by
    rw [field, hslice]
    exact leNat_take _ 4
  rw [hmod, versionOf, versionOf, QVersionNumber.segments.injEq]
  omega

theorem shstr_eq (hfile : WellFormed .elf64 m.order content.bytes)
    (hindex : shstrndx .elf64 m.order content.bytes < shnum .elf64 m.order content.bytes) {strings : SectionHeader}
    (hstrings : (sectionHeaders .elf64 m.order content.bytes)[stringIndex .elf64 m.order content.bytes]? =
      some strings) : (sections m content)[(ehdr m content).e_shstrndx]? = some (toShdr strings) := by
  rw [stringIndex_of_index hindex] at hstrings
  rw [sections_eq hfile hindex, e_shstrndx_eq, List.getElem?_map, hstrings]
  rfl

theorem findSection_firstNamed (hfile : WellFormed .elf64 m.order content.bytes)
    (hindex : shstrndx .elf64 m.order content.bytes < shnum .elf64 m.order content.bytes)
    (hnames : HasNames .elf64 m.order content.bytes) {strings : SectionHeader}
    (hstrings : (sectionHeaders .elf64 m.order content.bytes)[stringIndex .elf64 m.order content.bytes]? =
      some strings) (hinside : Inside content.bytes strings) :
    findSection (stringCells m content (toShdr strings)) (sections m content) =
      some ((firstNamed .elf64 m.order content.bytes qtversionName).map toShdr) := by
  rw [sections_eq hfile hindex]
  apply findSection_find
  · exact fun sh hsh => nameReadable hnames hstrings hinside hsh
  · intro sh hsh
    rw [namedQt_iff hnames hstrings hinside hsh, decide_eq_true_iff]

theorem qtVersionFromSo_eq (hlittle : m.order = .little) (hfile : WellFormed .elf64 m.order content.bytes)
    (hindex : shstrndx .elf64 m.order content.bytes < shnum .elf64 m.order content.bytes)
    (hnames : HasNames .elf64 m.order content.bytes)
    (hinside : ∀ sh ∈ sectionHeaders .elf64 m.order content.bytes,
      nameOf .elf64 m.order content.bytes sh = qtversionName → Inside content.bytes sh)
    (halloc : ∀ n ≤ content.bytes.length, m.allocates n = true) :
    qtVersionFromSo m (some content) = some (encodedVersion .elf64 .little content.bytes) := by
  obtain ⟨strings, hstrings, hstringsInside⟩ := hnames.index
  have hallocates := allocates_inside hstringsInside halloc
  rw [qtVersionFromSo_table (hasTable hfile hindex), searchVersion, shstr_eq hfile hindex hstrings]
  simp only [Option.bind_eq_bind, Option.bind_some, if_pos hallocates,
    findSection_firstNamed hfile hindex hnames hstrings hstringsInside]
  unfold encodedVersion
  rw [← hlittle]
  cases hfirst : firstNamed .elf64 m.order content.bytes qtversionName with
  | none => rfl
  | some sh =>
    obtain ⟨hmem, hname⟩ := mem_of_firstNamed hfirst
    have hversion := versionAt_inside hfile (toShdr strings) (hinside sh hmem hname) halloc
    rw [hlittle, versionOf_low, ← hlittle] at hversion
    exact hversion

theorem versionOf_eq_iff {ver major minor patch : ℕ} : versionOf ver = .segments major minor patch ↔
    major < 256 ∧ minor < 256 ∧ patch < 256 ∧ ver % 2 ^ 24 = major * 65536 + minor * 256 + patch := by
  rw [versionOf, QVersionNumber.segments.injEq]
  omega

theorem encodedVersion_eq_segments {cls : ElfClass} {order : ByteOrder} {bytes : List UInt8} {major minor patch : ℕ} :
    encodedVersion cls order bytes = .segments major minor patch ↔
      ∃ sh, firstNamed cls order bytes qtversionName = some sh ∧ 2 * (layout cls).pointerSize ≤ sh.size ∧
        versionOf (field order bytes (sh.offset + (layout cls).pointerSize) (layout cls).pointerSize) =
          .segments major minor patch := by
  unfold encodedVersion
  cases firstNamed cls order bytes qtversionName with
  | none => simp
  | some sh =>
    by_cases hsmall : sh.size < 2 * (layout cls).pointerSize
    · simp [hsmall]
    · simp [hsmall, not_lt.1 hsmall]

theorem encodedVersion_eq_null {cls : ElfClass} {order : ByteOrder} {bytes : List UInt8} :
    encodedVersion cls order bytes = .null ↔
      ∀ sh, firstNamed cls order bytes qtversionName = some sh → sh.size < 2 * (layout cls).pointerSize := by
  unfold encodedVersion
  cases firstNamed cls order bytes qtversionName with
  | none => simp
  | some sh =>
    by_cases hsmall : sh.size < 2 * (layout cls).pointerSize
    · simp [hsmall]
    · simp [hsmall, versionOf]

/-- Only the sections of the name need their bytes inside the file. -/
theorem version_decoded (m : Machine) (hlittle : m.order = .little) (content : FileContent)
    (halloc : ∀ n ≤ content.bytes.length, m.allocates n = true)
    (hfile : WellFormed .elf64 .little content.bytes)
    (hindex : shstrndx .elf64 .little content.bytes < shnum .elf64 .little content.bytes)
    (hnames : HasNames .elf64 .little content.bytes)
    (hinside : ∀ sh ∈ sectionHeaders .elf64 .little content.bytes,
      nameOf .elf64 .little content.bytes sh = qtversionName → Inside content.bytes sh) :
    (∀ major minor patch, qtVersionFromSo m (some content) = some (.segments major minor patch) ↔
      major < 256 ∧ minor < 256 ∧ patch < 256 ∧
        ∃ sh, firstNamed .elf64 .little content.bytes qtversionName = some sh ∧ 16 ≤ sh.size ∧
          field .little content.bytes (sh.offset + 8) 4 % 2 ^ 24 = major * 65536 + minor * 256 + patch) ∧
    (qtVersionFromSo m (some content) = some .null ↔
      ∀ sh, firstNamed .elf64 .little content.bytes qtversionName = some sh → sh.size < 16) := by
  rw [← hlittle] at hfile hindex hnames hinside
  rw [qtVersionFromSo_eq hlittle hfile hindex hnames hinside halloc, Option.some.injEq]
  refine ⟨fun major minor patch => ?_, encodedVersion_eq_null⟩
  rw [Option.some.injEq, encodedVersion_eq_segments]
  constructor
  · rintro ⟨sh, hfirst, hsize, hversion⟩
    obtain ⟨hmajor, hminor, hpatch, hword⟩ := versionOf_eq_iff.1 ((versionOf_low _ _).trans hversion)
    exact ⟨hmajor, hminor, hpatch, sh, hfirst, hsize, hword⟩
  · rintro ⟨hmajor, hminor, hpatch, sh, hfirst, hsize, hword⟩
    have hversion := versionOf_eq_iff.2 ⟨hmajor, hminor, hpatch, hword⟩
    exact ⟨sh, hfirst, hsize, (versionOf_low _ _).symm.trans hversion⟩

def wordBytes (order : ByteOrder) (length n : ℕ) : List UInt8 :=
  let bytes := (List.range length).map (fun i => UInt8.ofNat (n / 256 ^ i))
  match order with
  | .little => bytes
  | .big => bytes.reverse

def sampleHeader (cls : ElfClass) (order : ByteOrder) (machine shoff : ℕ) : List UInt8 :=
  [0x7f, 0x45, 0x4c, 0x46, classCode cls, dataCode order, 1] ++ List.replicate 9 0 ++ wordBytes order 2 3 ++
    wordBytes order 2 machine ++ wordBytes order 4 1 ++ List.replicate (2 * (layout cls).pointerSize) 0 ++
    wordBytes order (layout cls).pointerSize shoff ++ List.replicate 4 0 ++ wordBytes order 2 (layout cls).headerSize ++
    List.replicate 4 0 ++ wordBytes order 2 (layout cls).sectionSize ++ wordBytes order 2 3 ++ wordBytes order 2 2

def sampleSection (cls : ElfClass) (order : ByteOrder) (name type offset size : ℕ) : List UInt8 :=
  wordBytes order 4 name ++ wordBytes order 4 type ++ List.replicate (2 * (layout cls).pointerSize) 0 ++
    wordBytes order (layout cls).pointerSize offset ++ wordBytes order (layout cls).pointerSize size ++
    List.replicate (8 + 2 * (layout cls).pointerSize) 0

/-- A shared object with a null section, a version section for Qt 6.4.1 at 64 and a table of names behind it. -/
def sample (cls : ElfClass) (order : ByteOrder) (machine : ℕ) : List UInt8 :=
  let strings := [0] ++ qtversionName ++ [0] ++ [0x2e, 0x73, 0x68, 0x73, 0x74, 0x72, 0x74, 0x61, 0x62, 0]
  let stringsOffset := 64 + 2 * (layout cls).pointerSize
  sampleHeader cls order machine (stringsOffset + 24) ++ List.replicate (64 - (layout cls).headerSize) 0 ++
    wordBytes order (layout cls).pointerSize 0 ++ wordBytes order (layout cls).pointerSize 0x060401 ++
    strings ++ [0, 0] ++ sampleSection cls order 0 0 0 0 ++
    sampleSection cls order 1 1 64 (2 * (layout cls).pointerSize) ++ sampleSection cls order 12 3 stringsOffset 22

theorem sample_wellFormed : WellFormed .elf64 .little (sample .elf64 .little 62) := by decide +kernel

theorem version_decoded_sample : qtVersionFromSo ⟨.little, fun _ => true, false⟩
    (some ⟨sample .elf64 .little 62, by decide +kernel⟩) = some (.segments 6 4 1) := by
  have hnames := sample_wellFormed.names (by decide +kernel)
  have hdecoded := version_decoded ⟨.little, fun _ => true, false⟩ rfl ⟨sample .elf64 .little 62, by decide +kernel⟩
    (fun _ _ => rfl) sample_wellFormed (by decide +kernel) hnames (by decide +kernel)
  exact (hdecoded.1 6 4 1).2 ⟨by decide, by decide, by decide, ⟨1, 64, 16, 0⟩, by decide +kernel⟩

end DeepinServiceManager.SoFileVersions
