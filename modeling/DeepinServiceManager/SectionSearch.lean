import DeepinServiceManager.QtVersion

namespace DeepinServiceManager.SectionSearch

open ByteWords Utils

variable (m : Machine) (content : FileContent)

/-! What the function reads through its fixed layout, as slices of the file. -/

def ehdr : Elf64_Ehdr := ehdrOf m (slice content.bytes 0 64)

def seekTo (pos offset : ℕ) : ℕ := if offset < 2 ^ 63 then offset else pos

def tablePos : ℕ := seekTo 64 (ehdr m content).e_shoff

def tableSize : ℕ := 64 * (ehdr m content).e_shnum

def table : List UInt8 := slice content.bytes (tablePos m content) (tableSize m content)

structure HasTable : Prop where
  header : 64 ≤ content.bytes.length
  magic : content.bytes.take 4 = ELFMAG
  table : (table m content).length = tableSize m content

def sections : List Elf64_Shdr := shdrsOf m (ehdr m content).e_shnum (table m content)

def dataAt (pos : ℕ) (sh : Elf64_Shdr) : List UInt8 :=
  if sh.sh_size < 2 ^ 63 then slice content.bytes (seekTo pos sh.sh_offset) sh.sh_size else []

def stringBytes (shstr : Elf64_Shdr) : List UInt8 := dataAt content (tablePos m content + tableSize m content) shstr

def stringCells (shstr : Elf64_Shdr) : Cells :=
  QByteArray.cells m ⟨QByteArray.effectiveSize shstr.sh_size, stringBytes m content shstr⟩

def stringsEnd (shstr : Elf64_Shdr) : ℕ :=
  seekTo (tablePos m content + tableSize m content) shstr.sh_offset + (stringBytes m content shstr).length

def sectionBytes (shstr sh : Elf64_Shdr) : List UInt8 := dataAt content (stringsEnd m content shstr) sh

def Allocates (sh : Elf64_Shdr) : Prop := QByteArray.effectiveSize sh.sh_size = 0 ∨ m.allocates sh.sh_size = true

instance (sh : Elf64_Shdr) : Decidable (Allocates m sh) := inferInstanceAs (Decidable (_ ∨ _))

def NamedQt (cells : Cells) (sh : Elf64_Shdr) : Prop := Named (cells.drop sh.sh_name) qtversion

def NameReadable (cells : Cells) (sh : Elf64_Shdr) : Prop := Readable (cells.drop sh.sh_name) qtversion

def PassedOver (cells : Cells) (sh : Elf64_Shdr) : Prop := NameReadable cells sh ∧ ¬ NamedQt cells sh

def FirstNamed (cells : Cells) (l : List Elf64_Shdr) (sh : Elf64_Shdr) : Prop :=
  ∃ before after, l = before ++ sh :: after ∧ (∀ s ∈ before, PassedOver cells s) ∧ NamedQt cells sh

def versionAt (shstr sh : Elf64_Shdr) : Option QVersionNumber :=
  if Allocates m sh then
    if QByteArray.effectiveSize sh.sh_size < ptrSize (ehdr m content) * 2 then some .null
    else if ptrSize (ehdr m content) + 4 ≤ (sectionBytes m content shstr sh).length then
      some (versionOf (word (fileOrder (ehdr m content))
        (slice (sectionBytes m content shstr sh) (ptrSize (ehdr m content)) 4)))
    else none
  else none

def searchVersion : Option QVersionNumber := do
  let shstr ← (sections m content)[(ehdr m content).e_shstrndx]?
  if Allocates m shstr then
    match ← findSection (stringCells m content shstr) (sections m content) with
    | none => return .null
    | some sh => versionAt m content shstr sh
  else none

variable {m content}

theorem read_eq (f : QFile) (sh : Elf64_Shdr) :
    (f.seek sh.sh_offset).read sh.sh_size = (dataAt f.content f.pos sh,
      ⟨f.content, seekTo f.pos sh.sh_offset + (dataAt f.content f.pos sh).length⟩) := by
  have hseek : f.seek sh.sh_offset = ⟨f.content, seekTo f.pos sh.sh_offset⟩ := by
    unfold QFile.seek seekTo
    split_ifs <;> rfl
  rw [hseek]
  rfl

theorem uninitialized_eq (m : Machine) (sh : Elf64_Shdr) : QByteArray.uninitialized m sh.sh_size =
    if Allocates m sh then some ⟨QByteArray.effectiveSize sh.sh_size, []⟩ else none := rfl

theorem readVersion_eq (shstr sh : Elf64_Shdr) :
    readVersion m (ehdr m content) ⟨content, stringsEnd m content shstr⟩ sh = versionAt m content shstr sh := by
  unfold readVersion versionAt
  rw [uninitialized_eq]
  by_cases halloc : Allocates m sh
  · simp only [if_pos halloc, Option.bind_eq_bind, Option.bind_some, QByteArray.readFrom, read_eq]
    rfl
  · simp only [if_neg halloc, Option.bind_eq_bind, Option.bind_none]

theorem header_read : QFile.read ⟨content, 0⟩ 64 =
    (slice content.bytes 0 64, ⟨content, (slice content.bytes 0 64).length⟩) := by
  simp [QFile.read]

theorem table_read (h : 64 ≤ content.bytes.length) :
    (QFile.seek ⟨content, (slice content.bytes 0 64).length⟩ (ehdr m content).e_shoff).read (tableSize m content) =
      (table m content, ⟨content, tablePos m content + (table m content).length⟩) := by
  have hlength : (slice content.bytes 0 64).length = 64 := length_slice_of_le (by omega)
  have hsize : tableSize m content < 2 ^ 63 := by
    have hnum : (ehdr m content).e_shnum < 256 ^ (slice (slice content.bytes 0 64) 60 2).length := word_lt _ _
    have hle : (slice (slice content.bytes 0 64) 60 2).length ≤ 2 := by
      rw [length_slice]
      exact Nat.min_le_left _ _
    have hpow : 256 ^ (slice (slice content.bytes 0 64) 60 2).length ≤ 256 ^ 2 := Nat.pow_le_pow_right (by decide) hle
    rw [tableSize]
    omega
  have hseek : QFile.seek ⟨content, 64⟩ (ehdr m content).e_shoff = ⟨content, tablePos m content⟩ := by
    unfold QFile.seek tablePos seekTo
    split_ifs <;> rfl
  rw [hlength, hseek, QFile.read, if_pos hsize]
  rfl

theorem qtVersionFromSo_table (h : HasTable m content) :
    qtVersionFromSo m (some content) = searchVersion m content := by
  obtain ⟨hheader, hmagic, htable⟩ := h
  have hlength : (slice content.bytes 0 64).length = 64 := length_slice_of_le (by omega)
  have hmagic' : (slice content.bytes 0 64).take 4 = ELFMAG := by
    rw [slice, List.drop_zero, List.take_take]
    exact hmagic
  have hread : QFile.read (QFile.seek ⟨content, (slice content.bytes 0 64).length⟩
      (ehdrOf m (slice content.bytes 0 64)).e_shoff) (64 * (ehdrOf m (slice content.bytes 0 64)).e_shnum) =
      (table m content, ⟨content, tablePos m content + tableSize m content⟩) := by
    rw [← htable]
    exact table_read hheader
  have hcomplete : ¬ (table m content).length ≠ 64 * (ehdrOf m (slice content.bytes 0 64)).e_shnum := not_not.2 htable
  unfold qtVersionFromSo searchVersion
  simp only [header_read, if_neg (not_not.2 hlength), if_neg (not_not.2 hmagic'), hread, if_neg hcomplete]
  congr 1
  funext shstr
  by_cases halloc : Allocates m shstr
  · simp only [uninitialized_eq, if_pos halloc, Option.bind_eq_bind, Option.bind_some, QByteArray.readFrom, read_eq]
    congr 1
    funext found
    cases found with
    | none => rfl
    | some sh => exact readVersion_eq shstr sh
  · simp only [uninitialized_eq, if_neg halloc, Option.bind_eq_bind, Option.bind_none]

theorem qtVersionFromSo_no_table (h : ¬ HasTable m content) : qtVersionFromSo m (some content) = some .null := by
  unfold qtVersionFromSo
  simp only [header_read]
  split_ifs with hlength hmagic htable
  · rfl
  · rfl
  · rfl
  · have hheader : 64 ≤ content.bytes.length := by
      have hle := length_slice content.bytes 0 64
      omega
    refine absurd ⟨hheader, ?_, ?_⟩ h
    · rwa [slice, List.drop_zero, List.take_take, not_not] at hmagic
    · rw [not_not] at htable
      have hread := table_read (m := m) hheader
      exact (congrArg (fun read => read.1.length) hread).symm.trans htable

theorem findSection_cons_named {cells : Cells} {sh : Elf64_Shdr} (h : NamedQt cells sh) (rest : List Elf64_Shdr) :
    findSection cells (sh :: rest) = some (some sh) := by
  rw [findSection, strcmp_eq_true.2 h]
  rfl

theorem findSection_cons_passed {cells : Cells} {sh : Elf64_Shdr} (h : PassedOver cells sh) (rest : List Elf64_Shdr) :
    findSection cells (sh :: rest) = findSection cells rest := by
  rw [findSection, strcmp_eq_false.2 h]
  rfl

theorem findSection_cons_unreadable {cells : Cells} {sh : Elf64_Shdr} (h : ¬ NameReadable cells sh)
    (rest : List Elf64_Shdr) : findSection cells (sh :: rest) = none := by
  have hnone : strcmp (cells.drop sh.sh_name) qtversion = none := by
    rwa [← Option.not_isSome_iff_eq_none, strcmp_isSome]
  rw [findSection, hnone]
  rfl

theorem firstNamed_cons {cells : Cells} {s sh : Elf64_Shdr} {rest : List Elf64_Shdr} :
    FirstNamed cells (s :: rest) sh ↔ (NamedQt cells s ∧ s = sh) ∨ (PassedOver cells s ∧ FirstNamed cells rest sh) := by
  constructor
  · rintro ⟨before, after, hl, hbefore, hnamed⟩
    cases before with
    | nil =>
      obtain ⟨rfl, -⟩ := List.cons.inj hl
      exact .inl ⟨hnamed, rfl⟩
    | cons t before =>
      obtain ⟨rfl, hrest⟩ := List.cons.inj hl
      rw [List.forall_mem_cons] at hbefore
      exact .inr ⟨hbefore.1, before, after, hrest, hbefore.2, hnamed⟩
  · rintro (⟨hnamed, rfl⟩ | ⟨hpassed, before, after, rfl, hbefore, hnamed⟩)
    · exact ⟨[], rest, rfl, by simp, hnamed⟩
    · exact ⟨s :: before, after, rfl, List.forall_mem_cons.2 ⟨hpassed, hbefore⟩, hnamed⟩

theorem findSection_eq_none {cells : Cells} {l : List Elf64_Shdr} :
    findSection cells l = some none ↔ ∀ s ∈ l, PassedOver cells s := by
  induction l with
  | nil => simp [findSection]
  | cons s rest ih =>
    rw [List.forall_mem_cons]
    by_cases hnamed : NamedQt cells s
    · simp [findSection_cons_named hnamed, PassedOver, hnamed]
    · by_cases hreadable : NameReadable cells s
      · rw [findSection_cons_passed ⟨hreadable, hnamed⟩, ih, and_iff_right ⟨hreadable, hnamed⟩]
      · simp [findSection_cons_unreadable hreadable, PassedOver, hreadable]

theorem findSection_eq_some {cells : Cells} {l : List Elf64_Shdr} {sh : Elf64_Shdr} :
    findSection cells l = some (some sh) ↔ FirstNamed cells l sh := by
  induction l with
  | nil => simp [findSection, FirstNamed]
  | cons s rest ih =>
    rw [firstNamed_cons]
    by_cases hnamed : NamedQt cells s
    · simp [findSection_cons_named hnamed, PassedOver, hnamed]
    · by_cases hreadable : NameReadable cells s
      · rw [findSection_cons_passed ⟨hreadable, hnamed⟩, ih]
        simp [PassedOver, hreadable, hnamed]
      · simp [findSection_cons_unreadable hreadable, PassedOver, hreadable, hnamed]

theorem searchVersion_eq_some {v : QVersionNumber} : searchVersion m content = some v ↔
    ∃ shstr, (sections m content)[(ehdr m content).e_shstrndx]? = some shstr ∧ Allocates m shstr ∧
      ((v = .null ∧ ∀ s ∈ sections m content, PassedOver (stringCells m content shstr) s) ∨
        ∃ sh, FirstNamed (stringCells m content shstr) (sections m content) sh ∧
          versionAt m content shstr sh = some v) := by
  unfold searchVersion
  simp only [Option.bind_eq_bind, Option.bind_eq_some_iff]
  refine exists_congr fun shstr => and_congr_right fun _ => ?_
  by_cases halloc : Allocates m shstr
  · rw [if_pos halloc, Option.bind_eq_some_iff, and_iff_right halloc]
    constructor
    · rintro ⟨found, hfound, hv⟩
      cases found with
      | none => exact .inl ⟨(Option.some.inj hv).symm, findSection_eq_none.1 hfound⟩
      | some sh => exact .inr ⟨sh, findSection_eq_some.1 hfound, hv⟩
    · rintro (⟨rfl, hpassed⟩ | ⟨sh, hfirst, hv⟩)
      · exact ⟨none, findSection_eq_none.2 hpassed, rfl⟩
      · exact ⟨some sh, findSection_eq_some.2 hfirst, hv⟩
  · simp [halloc]

theorem versionAt_eq_null {shstr sh : Elf64_Shdr} : versionAt m content shstr sh = some .null ↔
    Allocates m sh ∧ QByteArray.effectiveSize sh.sh_size < ptrSize (ehdr m content) * 2 := by
  unfold versionAt
  split_ifs with halloc hsmall hread
  · exact iff_of_true rfl ⟨halloc, hsmall⟩
  · exact iff_of_false (by simp [versionOf]) (fun h => hsmall h.2)
  · exact iff_of_false (by simp) (fun h => hsmall h.2)
  · exact iff_of_false (by simp) (fun h => halloc h.1)

theorem versionAt_isSome {shstr sh : Elf64_Shdr} : (∃ v, versionAt m content shstr sh = some v) ↔
    Allocates m sh ∧ (ptrSize (ehdr m content) * 2 ≤ QByteArray.effectiveSize sh.sh_size →
      ptrSize (ehdr m content) + 4 ≤ (sectionBytes m content shstr sh).length) := by
  unfold versionAt
  split_ifs with halloc hsmall hread
  · exact iff_of_true ⟨_, rfl⟩ ⟨halloc, fun h => absurd h (not_le.2 hsmall)⟩
  · exact iff_of_true ⟨_, rfl⟩ ⟨halloc, fun _ => hread⟩
  · exact iff_of_false (by simp) (fun h => hread (h.2 (not_lt.1 hsmall)))
  · exact iff_of_false (by simp) (fun h => halloc h.1)

end DeepinServiceManager.SectionSearch
