import Mathlib.Tactic.MkIffOfInductiveProp
import DeepinServiceManager.ByteWords

/-! The section headers of an ELF file of either class and byte order, with their names. -/

namespace DeepinServiceManager.ElfFiles

open ByteWords

inductive ElfClass
  | elf32
  | elf64
  deriving DecidableEq

/-- The sizes of the header, of a section header and of a pointer, then the offsets of the fields. -/
structure Layout where
  headerSize : ℕ
  sectionSize : ℕ
  pointerSize : ℕ
  shoff : ℕ
  shentsize : ℕ
  shnum : ℕ
  shstrndx : ℕ
  offset : ℕ
  size : ℕ
  link : ℕ

def layout : ElfClass → Layout
  | .elf32 => ⟨52, 40, 4, 32, 46, 48, 50, 16, 20, 24⟩
  | .elf64 => ⟨64, 64, 8, 40, 58, 60, 62, 24, 32, 40⟩

def classCode : ElfClass → UInt8
  | .elf32 => 1
  | .elf64 => 2

def dataCode : ByteOrder → UInt8
  | .little => 1
  | .big => 2

structure SectionHeader where
  name : ℕ
  offset : ℕ
  size : ℕ
  link : ℕ
  deriving DecidableEq

variable (cls : ElfClass) (order : ByteOrder) (bytes : List UInt8)

def field (offset length : ℕ) : ℕ := word order (slice bytes offset length)

def tableOffset : ℕ := field order bytes (layout cls).shoff (layout cls).pointerSize

def shnum : ℕ := field order bytes (layout cls).shnum 2

def shstrndx : ℕ := field order bytes (layout cls).shstrndx 2

def sectionOffset (i : ℕ) : ℕ := tableOffset cls order bytes + (layout cls).sectionSize * i

def sectionHeader (i : ℕ) : SectionHeader where
  name := field order bytes (sectionOffset cls order bytes i) 4
  offset := field order bytes (sectionOffset cls order bytes i + (layout cls).offset) (layout cls).pointerSize
  size := field order bytes (sectionOffset cls order bytes i + (layout cls).size) (layout cls).pointerSize
  link := field order bytes (sectionOffset cls order bytes i + (layout cls).link) 4

-- With extended numbering the number and the index are in the first section header.
def sectionCount : ℕ :=
  if shnum cls order bytes = 0 then
    if tableOffset cls order bytes = 0 then 0 else (sectionHeader cls order bytes 0).size
  else shnum cls order bytes

def stringIndex : ℕ :=
  if shstrndx cls order bytes = 0xffff then (sectionHeader cls order bytes 0).link else shstrndx cls order bytes

def sectionHeaders : List SectionHeader :=
  (List.range (sectionCount cls order bytes)).map (sectionHeader cls order bytes)

def Inside (sh : SectionHeader) : Prop := sh.offset + sh.size ≤ bytes.length

instance (sh : SectionHeader) : Decidable (Inside bytes sh) := inferInstanceAs (Decidable (_ ≤ _))

def contents (sh : SectionHeader) : List UInt8 := slice bytes sh.offset sh.size

def stringTable : List UInt8 :=
  match (sectionHeaders cls order bytes)[stringIndex cls order bytes]? with
  | none => []
  | some sh => contents bytes sh

def nameOf (sh : SectionHeader) : List UInt8 := ((stringTable cls order bytes).drop sh.name).takeWhile (· ≠ 0)

def firstNamed (target : List UInt8) : Option SectionHeader :=
  (sectionHeaders cls order bytes).find? (fun sh => nameOf cls order bytes sh = target)

structure HasNames : Prop where
  index : ∃ sh, (sectionHeaders cls order bytes)[stringIndex cls order bytes]? = some sh ∧ Inside bytes sh
  terminated : (stringTable cls order bytes).getLast? = some 0
  covers : ∀ sh ∈ sectionHeaders cls order bytes, sh.name < (stringTable cls order bytes).length

instance : Decidable (HasNames cls order bytes) :=
  decidable_of_iff ((∃ sh ∈ (sectionHeaders cls order bytes)[stringIndex cls order bytes]?, Inside bytes sh) ∧
      (stringTable cls order bytes).getLast? = some 0 ∧
      ∀ sh ∈ sectionHeaders cls order bytes, sh.name < (stringTable cls order bytes).length)
    ⟨fun h => ⟨h.1, h.2.1, h.2.2⟩, fun h => ⟨h.index, h.terminated, h.covers⟩⟩

@[mk_iff] structure WellFormed : Prop where
  header : (layout cls).headerSize ≤ bytes.length
  magic : bytes.take 4 = [0x7f, 0x45, 0x4c, 0x46]
  ident_class : bytes[4]? = some (classCode cls)
  ident_data : bytes[5]? = some (dataCode order)
  entries : sectionCount cls order bytes ≠ 0 →
    field order bytes (layout cls).shentsize 2 = (layout cls).sectionSize ∧
      sectionOffset cls order bytes (sectionCount cls order bytes) ≤ bytes.length
  names : stringIndex cls order bytes ≠ 0 → HasNames cls order bytes

instance : Decidable (WellFormed cls order bytes) := decidable_of_iff _ (wellFormed_iff cls order bytes).symm

variable {cls order bytes}

theorem shnum_lt : shnum cls order bytes < 2 ^ 16 := by
  have hlt : shnum cls order bytes < 256 ^ (slice bytes (layout cls).shnum 2).length := word_lt _ _
  have hle : (slice bytes (layout cls).shnum 2).length ≤ 2 := by
    rw [length_slice]
    exact Nat.min_le_left _ _
  have hpow := Nat.pow_le_pow_right (n := 256) (by decide) hle
  omega

theorem sectionCount_of_index (h : shstrndx cls order bytes < shnum cls order bytes) :
    sectionCount cls order bytes = shnum cls order bytes := by
  rw [sectionCount, if_neg (by omega)]

theorem stringIndex_of_index (h : shstrndx cls order bytes < shnum cls order bytes) :
    stringIndex cls order bytes = shstrndx cls order bytes := by
  have hlt : shnum cls order bytes < 2 ^ 16 := shnum_lt
  rw [stringIndex, if_neg (by omega)]

theorem length_contents {sh : SectionHeader} (h : Inside bytes sh) : (contents bytes sh).length = sh.size :=
  length_slice_of_le h

theorem HasNames.zero_mem (h : HasNames cls order bytes) {sh : SectionHeader}
    (hsh : sh ∈ sectionHeaders cls order bytes) : 0 ∈ (stringTable cls order bytes).drop sh.name := by
  have hlast : ((stringTable cls order bytes).drop sh.name).getLast? = some 0 := by
    rw [List.getLast?_drop, if_neg (not_le.2 (h.covers sh hsh))]
    exact h.terminated
  exact List.mem_of_getLast? hlast

end DeepinServiceManager.ElfFiles
