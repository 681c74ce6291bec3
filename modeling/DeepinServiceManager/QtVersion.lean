import DeepinServiceManager.ByteWords

namespace DeepinServiceManager

open ByteWords

/-- The length of a file is a `qint64`. -/
structure FileContent where
  bytes : List UInt8
  small : bytes.length < 2 ^ 63

structure QFile where
  content : FileContent
  pos : ℕ

namespace QFile

-- An offset that is negative as a `qint64` is refused and the position stays.
def seek (f : QFile) (offset : ℕ) : QFile := if offset < 2 ^ 63 then { f with pos := offset } else f

-- A length that is negative as a `qint64` reads nothing.
def read (f : QFile) (maxSize : ℕ) : List UInt8 × QFile :=
  let bytes := if maxSize < 2 ^ 63 then slice f.content.bytes f.pos maxSize else []
  (bytes, { f with pos := f.pos + bytes.length })

end QFile

/-- An array created without initialisation, and the bytes that were read into it from its start. -/
structure QByteArray where
  size : ℕ
  filled : List UInt8

/-- What the function depends on outside the file: the byte order of the machine, the sizes for which memory can be
allocated, and whether the terminator behind the last byte of a `QByteArray` counts as a byte that may be read. -/
structure Machine where
  order : ByteOrder
  allocates : ℕ → Bool
  terminator : Bool

namespace QByteArray

-- A size that is negative as a `qsizetype` gives an empty array.
def effectiveSize (size : ℕ) : ℕ := if size < 2 ^ 63 then size else 0

def uninitialized (m : Machine) (size : ℕ) : Option QByteArray :=
  if effectiveSize size = 0 ∨ m.allocates size then some ⟨effectiveSize size, []⟩ else none

def readFrom (a : QByteArray) (f : QFile) (maxSize : ℕ) : QByteArray × QFile :=
  ({ a with filled := (f.read maxSize).1 }, (f.read maxSize).2)

def cells (m : Machine) (a : QByteArray) : Cells :=
  a.filled.map some ++ List.replicate (a.size - a.filled.length) none ++ if m.terminator then [some 0] else []

end QByteArray

inductive QVersionNumber
  | null
  | segments (major minor patch : ℕ)
  deriving DecidableEq

structure Elf64_Ehdr where
  EI_CLASS : UInt8
  EI_DATA : UInt8
  e_shoff : ℕ
  e_shnum : ℕ
  e_shstrndx : ℕ

structure Elf64_Shdr where
  sh_name : ℕ
  sh_offset : ℕ
  sh_size : ℕ
  deriving DecidableEq

namespace Utils

def ELFMAG : List UInt8 := [0x7f, 0x45, 0x4c, 0x46]

def ELFCLASS64 : UInt8 := 2

def ELFDATA2LSB : UInt8 := 1

/-- The characters of ".qtversion" and the terminator. -/
def qtversion : List UInt8 := [0x2e, 0x71, 0x74, 0x76, 0x65, 0x72, 0x73, 0x69, 0x6f, 0x6e, 0]

def ehdrOf (m : Machine) (bytes : List UInt8) : Elf64_Ehdr where
  EI_CLASS := bytes.getD 4 0
  EI_DATA := bytes.getD 5 0
  e_shoff := word m.order (slice bytes 40 8)
  e_shnum := word m.order (slice bytes 60 2)
  e_shstrndx := word m.order (slice bytes 62 2)

def shdrOf (m : Machine) (bytes : List UInt8) : Elf64_Shdr where
  sh_name := word m.order (slice bytes 0 4)
  sh_offset := word m.order (slice bytes 24 8)
  sh_size := word m.order (slice bytes 32 8)

def shdrsOf (m : Machine) (num : ℕ) (bytes : List UInt8) : List Elf64_Shdr :=
  (List.range num).map (fun i => shdrOf m (slice bytes (64 * i) 64))

def ptrSize (ehdr : Elf64_Ehdr) : ℕ := if ehdr.EI_CLASS = ELFCLASS64 then 8 else 4

def fileOrder (ehdr : Elf64_Ehdr) : ByteOrder := if ehdr.EI_DATA = ELFDATA2LSB then .little else .big

def versionOf (ver : ℕ) : QVersionNumber := .segments (ver / 2 ^ 16 % 256) (ver / 2 ^ 8 % 256) (ver % 256)

def findSection (shstrtab : Cells) : List Elf64_Shdr → Option (Option Elf64_Shdr)
  | [] => some none
  | sh :: rest => do
    if ← strcmp (shstrtab.drop sh.sh_name) qtversion then return some sh
    else findSection shstrtab rest

-- The four bytes at the second pointer must have been read from the file.
def readVersion (m : Machine) (ehdr : Elf64_Ehdr) (f : QFile) (sh : Elf64_Shdr) : Option QVersionNumber := do
  let sec ← QByteArray.uninitialized m sh.sh_size
  let (sec, _) := sec.readFrom (f.seek sh.sh_offset) sh.sh_size
  if sec.size < ptrSize ehdr * 2 then return .null
  else if ptrSize ehdr + 4 ≤ sec.filled.length then
    return versionOf (word (fileOrder ehdr) (slice sec.filled (ptrSize ehdr) 4))
  else none

/-- `none` is a read outside the buffers or of a byte that was not read from the file, or an allocation that fails. -/
def qtVersionFromSo (m : Machine) (file : Option FileContent) : Option QVersionNumber :=
  match file with
  | none => some .null
  | some content =>
    let (header, f) := QFile.read ⟨content, 0⟩ 64
    if header.length ≠ 64 then some .null
    else if header.take 4 ≠ ELFMAG then some .null
    else
      let ehdr := ehdrOf m header
      let (table, f) := (f.seek ehdr.e_shoff).read (64 * ehdr.e_shnum)
      if table.length ≠ 64 * ehdr.e_shnum then some .null
      else do
        let sections := shdrsOf m ehdr.e_shnum table
        let shstr ← sections[ehdr.e_shstrndx]?
        let shstrtab ← QByteArray.uninitialized m shstr.sh_size
        let (shstrtab, f) := shstrtab.readFrom (f.seek shstr.sh_offset) shstr.sh_size
        match ← findSection (shstrtab.cells m) sections with
        | none => return .null
        | some sh => readVersion m ehdr f sh

end Utils

end DeepinServiceManager
